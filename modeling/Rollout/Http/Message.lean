/-
Requests and responses.
-/
import Rollout.Http.Url
import Rollout.Json.Value

namespace Rollout.Http

/-- The names and values of headers; names are in lower case. -/
abbrev Headers := List (String × String)

structure Request where
  method : String
  /-- The scheme and the authority of the server; a server does not look at it. -/
  origin : String := ""
  path : String
  query : Option String := none
  headers : Headers := []
  body : Bytes := []
  deriving DecidableEq, Repr, Inhabited

/-- Path and query, as a request names them. -/
def Request.target (r : Request) : String :=
  r.path ++ match r.query with
    | some q => "?" ++ q
    | none => ""

/-- A request to a URL. -/
def Request.to (method : String) (u : Url) : Request :=
  { method, origin := u.origin, path := u.path, query := u.query }

structure Response where
  status : Nat
  headers : Headers := []
  body : Bytes := []
  deriving DecidableEq, Repr, Inhabited

/-- What carries a request to a server: a response, or a failure in its own words. -/
abbrev Transport := Request → Except String Response

/-- A response that says that the request did what it should. -/
def Response.isSuccess (r : Response) : Bool := 200 ≤ r.status && r.status < 300

/-- The type of a JSON body. -/
def jsonType : String := "application/json"

/-- A request with a JSON body. -/
def Request.withJson (r : Request) (v : Json.Value) : Request :=
  { r with headers := r.headers ++ [("content-type", jsonType)], body := Utf8.encode v.compact }

/-- A response with a JSON body. -/
def Response.json (status : Nat) (v : Json.Value) : Response :=
  { status, headers := [("content-type", jsonType)], body := Utf8.encode v.compact }

/-- The phrase that goes with a status. -/
def statusPhrase? (status : Nat) : Option String :=
  [(100, "Continue"), (101, "Switching Protocols"), (102, "Processing"), (200, "OK"),
    (201, "Created"), (202, "Accepted"), (203, "Non Authoritative Information"),
    (204, "No Content"), (205, "Reset Content"), (206, "Partial Content"), (207, "Multi-Status"),
    (208, "Already Reported"), (226, "IM Used"), (300, "Multiple Choices"),
    (301, "Moved Permanently"), (302, "Found"), (303, "See Other"), (304, "Not Modified"),
    (305, "Use Proxy"), (307, "Temporary Redirect"), (308, "Permanent Redirect"),
    (400, "Bad Request"), (401, "Unauthorized"), (402, "Payment Required"), (403, "Forbidden"),
    (404, "Not Found"), (405, "Method Not Allowed"), (406, "Not Acceptable"),
    (407, "Proxy Authentication Required"), (408, "Request Timeout"), (409, "Conflict"),
    (410, "Gone"), (411, "Length Required"), (412, "Precondition Failed"),
    (413, "Payload Too Large"), (414, "URI Too Long"), (415, "Unsupported Media Type"),
    (416, "Range Not Satisfiable"), (417, "Expectation Failed"), (418, "I'm a teapot"),
    (421, "Misdirected Request"), (422, "Unprocessable Entity"), (423, "Locked"),
    (424, "Failed Dependency"), (425, "Too Early"), (426, "Upgrade Required"),
    (428, "Precondition Required"), (429, "Too Many Requests"),
    (431, "Request Header Fields Too Large"), (451, "Unavailable For Legal Reasons"),
    (500, "Internal Server Error"), (501, "Not Implemented"), (502, "Bad Gateway"),
    (503, "Service Unavailable"), (504, "Gateway Timeout"), (505, "HTTP Version Not Supported"),
    (506, "Variant Also Negotiates"), (507, "Insufficient Storage"), (508, "Loop Detected"),
    (510, "Not Extended"), (511, "Network Authentication Required")].lookup status

/-- A status with its phrase. -/
def statusText (status : Nat) : String :=
  let phrase := (statusPhrase? status).getD "<unknown status code>"
  s!"{status} {phrase}"

end Rollout.Http
