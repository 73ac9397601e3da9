/-
The registry seen from its clients: which request a call sends, and what a response to it means.
-/
import Rollout.Http.Message
import Rollout.Registry.Call
import Rollout.Spec.Wire
import Rollout.Text.Blank

namespace Rollout.Registry

open Http (Request Response Transport)
open Spec (Application)

/-- The base of a registry's URLs, without slashes at its end. -/
def trimBase (url : String) : String := Text.trimRight (· == '/') url

namespace Call

def method : Call → String
  | get _ | list => "GET"
  | put _ => "PUT"
  | delete _ => "DELETE"

/-- What a call adds to the base. -/
def path : Call → String
  | get name | delete name => "/specs/" ++ name
  | put spec => "/specs/" ++ spec.name
  | list => "/specs"

/-- The request that a call sends; a text that is no URL cannot be sent to. -/
def request (base : String) (c : Call) : Except ClientError Request :=
  match Http.Url.parse? (trimBase base ++ c.path) with
  | none => .error (.network "the URL cannot be used")
  | some u =>
    let r := Request.to c.method u
    .ok (match c with
      | put spec => r.withJson spec.toJson
      | _ => r)

end Call

/-! ### Responses -/

/-- Reads the body of a successful response. -/
def decodeBody (item : Json.Decoder α) (r : Response) : Except ClientError α :=
  (Json.decodeBytes item r.body).mapError fun f => .network f.message

/-- What the body of a failure says. -/
def errorDecoder : Json.Decoder (String × String) :=
  .record "ErrorBody" (Prod.mk <$> Json.Fields.required "code" .text
    <*> Json.Fields.required "message" .text)

/-- The failure that a response tells of. -/
def failureOf (r : Response) : ClientError :=
  match Json.decodeBytes errorDecoder r.body with
  | .ok (code, message) => .api r.status code message
  | .error _ => .api r.status "unknown" s!"registry returned status {r.status}"

/-- What a response means for a call. -/
def Call.answer : (c : Call) → Response → Except ClientError c.Result
  | get _, r =>
    if r.status == 404 then .ok none
    else if r.isSuccess then some <$> decodeBody (Application.schema Json.format) r
    else .error (failureOf r)
  | put _, r =>
    if r.isSuccess then decodeBody (Application.schema Json.format) r else .error (failureOf r)
  | delete _, r => if r.isSuccess then .ok () else .error (failureOf r)
  | list, r =>
    if r.isSuccess then decodeBody (.list (Application.schema Json.format)) r
    else .error (failureOf r)

/-- Carries out a call over a transport that gives a response or fails. -/
def Call.over (transport : Transport) (base : String) (c : Call) :
    Except ClientError c.Result := do
  let response ← (transport (← c.request base)).mapError .network
  c.answer response

end Rollout.Registry
