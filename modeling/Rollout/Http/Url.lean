/-
URLs of web servers.

`Url.parse?` reads a text the way browsers do: blanks around it and line ends in it do not count,
backslashes are slashes, dot segments are resolved, and characters that may not stand in a path or
a query are percent-encoded.

Design notes: only `http` and `https` are known.  The authority is checked and brought to lower
case; names of hosts are kept in ASCII.
-/
import Rollout.Http.Percent

namespace Rollout.Http

structure Url where
  scheme : String
  /-- Host and port. -/
  authority : String
  /-- The segments of the path; there is at least one. -/
  segments : List String
  query : Option String := none
  deriving DecidableEq, Repr, Inhabited

namespace Url

/-- The path as text. -/
def path (u : Url) : String := "/" ++ "/".intercalate u.segments

/-- The scheme and the authority as text. -/
def origin (u : Url) : String := u.scheme ++ "://" ++ u.authority

/-! ### Cleaning -/

def isControlOrSpace (c : Char) : Bool := c.toNat ≤ 0x20

def isTabOrLineEnd (c : Char) : Bool := c == '\t' || c == '\n' || c == '\r'

/-- The characters without those around and in them that do not count. -/
def clean (s : String) : List Char :=
  let trimmed := s.toList.dropWhile isControlOrSpace
  let trimmed := (trimmed.reverse.dropWhile isControlOrSpace).reverse
  trimmed.filter (!isTabOrLineEnd ·)

/-- Slashes of either kind. -/
def isSlash (c : Char) : Bool := c == '/' || c == '\\'

/-! ### Paths and queries -/

/-- Characters that are escaped in a path. -/
def escapedInPath (c : Char) : Bool :=
  c.toNat ≤ 0x20 || c == '\x7f' || "\"<>\x60#?\x7b\x7d".toList.contains c

/-- Characters that are escaped in a query. -/
def escapedInQuery (c : Char) : Bool :=
  c.toNat ≤ 0x20 || c == '\x7f' || "\"<>#'".toList.contains c

/-- The piece before the first separator, and what follows it. -/
def cut (isSeparator : Char → Bool) : List Char → List Char × Option (List Char)
  | [] => ([], none)
  | c :: rest =>
    if isSeparator c then ([], some rest)
    else
      let (piece, rest) := cut isSeparator rest
      (c :: piece, rest)

/-- The pieces between separators; there is at least one. -/
def pieces (isSeparator : Char → Bool) : List Char → List (List Char)
  | [] => [[]]
  | c :: rest =>
    if isSeparator c then [] :: pieces isSeparator rest
    else match pieces isSeparator rest with
      | piece :: more => (c :: piece) :: more
      | [] => [[c]]

/-- Dots, each perhaps escaped. -/
def dots (s : List Char) : Option Nat :=
  match s with
  | [] => some 0
  | '.' :: rest => (dots rest).map (· + 1)
  | '%' :: '2' :: c :: rest => if c == 'e' || c == 'E' then (dots rest).map (· + 1) else none
  | _ => none

/-- Resolves dot segments: one dot stands for nothing, two take a segment back; at the end either
leaves an empty segment.  The segments so far come newest first. -/
def resolve (done : List String) : List (List Char) → List String
  | [] => done.reverse
  | [last] =>
    (match dots last with
      | some 1 => "" :: done
      | some 2 => "" :: done.drop 1
      | _ => String.ofList (percentEncode escapedInPath last) :: done).reverse
  | piece :: rest =>
    match dots piece with
    | some 1 => resolve done rest
    | some 2 => resolve (done.drop 1) rest
    | _ => resolve (String.ofList (percentEncode escapedInPath piece) :: done) rest

/-- The segments of a path as written; a slash in front is no piece of its own. -/
def segmentsOf (cs : List Char) : List String :=
  match cs with
  | c :: rest => if isSlash c then resolve [] (pieces isSlash rest) else resolve [] (pieces isSlash cs)
  | [] => [""]

/-! ### Authorities -/

/-- The part behind the last at sign. -/
def withoutUser (cs : List Char) : List Char :=
  (cs.reverse.takeWhile (· != '@')).reverse

/-- Characters that cannot stand in the name of a host. -/
def isForbiddenInHost (c : Char) : Bool :=
  c.toNat ≤ 0x20 || 0x7f ≤ c.toNat || "#/:<>?@[\\]^|%".toList.contains c

/-- The port of a scheme that goes without saying. -/
def defaultPort (scheme : String) : Nat := if scheme == "https" then 443 else 80

/-- The port as written: digits below the greatest port, or none. -/
def portOf? (cs : List Char) : Option (Option Nat) :=
  if cs.isEmpty then some none
  else if !cs.all Char.isDigit then none
  else
    let n := cs.foldl (fun n c => n * 10 + (c.toNat - '0'.toNat)) 0
    if n < 65536 then some (some n) else none

/-- The host in front of the port, and the port. -/
def splitPort (cs : List Char) : List Char × List Char :=
  match cs with
  | '[' :: _ =>
    let host := cs.takeWhile (· != ']') ++ [']']
    (host, (cs.drop host.length).dropWhile (· == ':'))
  | _ =>
    let (host, port) := cut (· == ':') cs
    (host, port.getD [])

/-- A host in lower case, if it can be one. -/
def hostOf? (cs : List Char) : Option String :=
  match cs with
  | '[' :: rest =>
    if (rest.dropLast).all fun c => c.isAlphanum || c == ':' || c == '.' then
      some (String.ofList (cs.map Char.toLower))
    else none
  | _ =>
    if cs.isEmpty || cs.any isForbiddenInHost then none
    else some (String.ofList (cs.map Char.toLower))

/-- The authority, without a user and without the default port. -/
def authorityOf? (scheme : String) (cs : List Char) : Option String := do
  let (host, port) := splitPort (withoutUser cs)
  let host ← hostOf? host
  match ← portOf? port with
  | some n => some (if n == defaultPort scheme then host else s!"{host}:{n}")
  | none => some host

/-! ### Whole texts -/

/-- The scheme in front of a colon, and what follows the slashes behind it. -/
def schemeOf? (cs : List Char) : Option (String × List Char) :=
  match cut (· == ':') cs with
  | (name, some rest) =>
    let scheme := String.ofList (name.map Char.toLower)
    if scheme == "http" || scheme == "https" then some (scheme, rest.dropWhile isSlash) else none
  | (_, none) => none

/-- Reads a URL; what follows a number sign is dropped. -/
def parse? (s : String) : Option Url := do
  let (scheme, rest) ← schemeOf? (clean s)
  let (rest, _) := cut (· == '#') rest
  let (front, query) := cut (· == '?') rest
  let authority ← authorityOf? scheme (front.takeWhile (!isSlash ·))
  some {
    scheme, authority
    segments := segmentsOf (front.dropWhile (!isSlash ·))
    query := query.map fun q => String.ofList (percentEncode escapedInQuery q) }

/-- The URL with more pairs in its query. -/
def withQuery (u : Url) (pairs : List (String × String)) : Url :=
  { u with query := some (match u.query with
      | some q => if q.isEmpty then formQuery pairs else q ++ "&" ++ formQuery pairs
      | none => formQuery pairs) }

end Url

end Rollout.Http
