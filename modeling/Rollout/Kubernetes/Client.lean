/-
The cluster seen from its clients: which request an operation sends, and what a response means.

* `Connection.check` says whether settings can be connected with at all;
* `Call.request`, `podsRequest` and `logRequest` are the requests;
* `Call.answer`, `podsAnswer` and `logAnswer` read the responses.

Design notes: a failure that the cluster reports may come without a reason or a message; then the
phrase of the status and the empty text stand in.
-/
import Rollout.Http.Message
import Rollout.Json.Decode
import Rollout.Kubernetes.Call
import Rollout.Kubernetes.Config
import Rollout.Kubernetes.LogLines
import Rollout.Security.Identity

namespace Rollout.Kubernetes

open Http (Request Response Transport)

namespace Connection

/-! ### Settings -/

/-- A connection without credentials. -/
def plain (server : String) : Connection := { server := trimServer server }

/-- A byte that may stand in the value of a header. -/
def isHeaderByte (b : UInt8) : Bool := b == 0x09 || (0x20 ≤ b && b != 0x7F)

def checkToken (c : Connection) : Except ClusterError Unit :=
  match c.token with
  | some token =>
    if (Utf8.encode token).all isHeaderByte then .ok ()
    else .error (.config "invalid bearer token")
  | none => .ok ()

/-- The identity of the client: certificate and key go together. -/
def identity (c : Connection) : Except ClusterError (Option Security.Identity) :=
  match c.clientCertificate, c.clientKey with
  | some certificate, some key =>
    match Security.Identity.ofPem? (certificate ++ lineEnd :: key) with
    | some i => .ok (some i)
    | none => .error (.config "invalid client certificate: certificate or key not found")
  | some _, none =>
    .error (.config "kubeconfig user has client-certificate-data but no client-key-data")
  | none, some _ =>
    .error (.config "kubeconfig user has client-key-data but no client-certificate-data")
  | none, none => .ok none

/-- Everything that is to be trusted can be read. -/
def trustIsReadable (c : Connection) (i : Option Security.Identity) : Bool :=
  c.certificateAuthority.all (fun ca => (Security.authorities? ca).isSome)
    && i.all Security.Identity.isUsable

/-- Settings that can be connected with; no server is asked. -/
def check (c : Connection) : Except ClusterError Unit := do
  c.checkToken
  let i ← c.identity
  if c.trustIsReadable i then .ok () else .error (.network "certificates cannot be used")

end Connection

/-! ### Requests -/

/-- A request to a path of the server, with the token when there is one. -/
def Connection.request (c : Connection) (method path : String)
    (query : List (String × String) := []) : Except ClusterError Request :=
  match Http.Url.parse? (c.server ++ path) with
  | none => .error (.network "the URL cannot be used")
  | some u =>
    let u := if query.isEmpty then u else u.withQuery query
    let headers := match c.token with
      | some token => [("authorization", "Bearer " ++ token)]
      | none => []
    .ok { Request.to method u with headers }

/-- The body of a removal. -/
def deleteOptions (p : Propagation) : Json.Value :=
  .object [("kind", .text "DeleteOptions"), ("apiVersion", .text "v1"),
    ("propagationPolicy", .text p.name)]

/-- The request of a change. -/
def Call.request (c : Connection) (call : Call) : Except ClusterError Request :=
  match call with
  | .create _ r => do .ok ((← c.request "POST" call.path).withJson r.toJson)
  | .delete t => do .ok ((← c.request "DELETE" call.path).withJson (deleteOptions t.propagation))

/-- The path of all pods of a namespace. -/
def podsPath (ns : String) : String := s!"/api/v1/namespaces/{ns}/pods"

/-- Asks for the pods that match a label selector. -/
def podsRequest (c : Connection) (ns selector : String) : Except ClusterError Request :=
  c.request "GET" (podsPath ns) [("labelSelector", selector)]

/-- Nanoseconds in a second. -/
def nanosPerSecond : Nat := 1000000000

/-- The whole seconds that cover a time in nanoseconds, one at least. -/
def sinceSeconds (nanos : Nat) : Nat :=
  max 1 (nanos / nanosPerSecond + if nanos % nanosPerSecond = 0 then 0 else 1)

/-- Asks for the log of a container: all of it, or the part of the last nanoseconds. -/
def logRequest (c : Connection) (ns : String) (k : ContainerKey) (since : Option Nat) :
    Except ClusterError Request :=
  c.request "GET" s!"{podsPath ns}/{k.pod}/log"
    ([("container", k.container), ("follow", "true")]
      ++ (since.map fun n => ("sinceSeconds", toString (sinceSeconds n))).toList)

/-! ### Responses -/

open Json (Decoder Fields) in
/-- The reason and the message in the body of a failure. -/
def statusDecoder : Decoder (Option String × Option String) :=
  .record "Status" (Prod.mk <$> Fields.field "reason" (.optional .text) none
    <*> Fields.field "message" (.optional .text) none)

/-- The failure that a response tells of. -/
def failureOf (r : Response) : ClusterError :=
  let (reason, message) := match Json.decodeBytes statusDecoder r.body with
    | .ok found => found
    | .error _ => (none, none)
  .api r.status (reason.getD (Http.statusText r.status)) (message.getD "")

/-- The response itself, if it tells of success. -/
def successOf (r : Response) : Except ClusterError Response :=
  if r.isSuccess then .ok r else .error (failureOf r)

/-- What a response means for a change. -/
def Call.answer (r : Response) : Except ClusterError Unit := do
  let _ ← successOf r

open Json (Decoder Fields) in
def podDecoder : Decoder Pod :=
  let named := fun record => Decoder.record record (Fields.required "name" .text)
  .record "Pod" (Pod.mk <$> Fields.required "metadata" (named "PodMetadata")
    <*> Fields.required "spec" (.record "PodSpec"
      (Fields.field "containers" (.list (named "Container")) []))
    <*> (Option.join <$> Fields.field "status" (.optional (.record "PodStatus"
      (Fields.field "phase" (.optional .text) none))) none))

open Json (Decoder Fields) in
def podsDecoder : Decoder (List Pod) :=
  .record "PodList" (Fields.field "items" (.list podDecoder) [])

/-- The pods in a response. -/
def podsAnswer (r : Response) : Except ClusterError (List Pod) := do
  let r ← successOf r
  (Json.decodeBytes podsDecoder r.body).mapError fun f => .network f.message

/-- The items of the log in a response whose body comes in pieces. -/
def logAnswer (r : Response) (pieces : List Piece) : Except ClusterError (List LogItem) := do
  let _ ← successOf r
  .ok (logItems pieces)

/-! ### Transport -/

/-- Sends a request. -/
def send (t : Transport) (r : Except ClusterError Request) : Except ClusterError Response := do
  (t (← r)).mapError .network

/-- Carries out a change. -/
def Call.over (t : Transport) (c : Connection) (call : Call) : Except ClusterError Unit := do
  Call.answer (← send t (call.request c))

/-- Lists the pods that match a label selector. -/
def podsOver (t : Transport) (c : Connection) (ns selector : String) :
    Except ClusterError (List Pod) := do
  podsAnswer (← send t (podsRequest c ns selector))

/-- Reads the log of a container; the body comes as one piece. -/
def logOver (t : Transport) (c : Connection) (ns : String) (k : ContainerKey)
    (since : Option Nat) : Except ClusterError (List LogItem) := do
  let r ← send t (logRequest c ns k since)
  logAnswer r [.bytes r.body]

end Rollout.Kubernetes
