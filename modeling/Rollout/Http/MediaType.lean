/-
Media types, such as `application/problem+json; charset=utf-8`.

A body counts as JSON when its type is `application` and its subtype is `json` or ends in `+json`.
Whatever parameters follow have to be well formed.
-/

namespace Rollout.Http

/-- Characters that names are made of. -/
def isTokenChar (c : Char) : Bool :=
  c.isAlphanum || "!#$%&'*+-.^_\x60|~".toList.contains c

/-- Characters that may stand in quotes. -/
def isQuotable (c : Char) : Bool :=
  ' ' ≤ c && c.toNat < 0x7f

/-- Where a reader of parameters is. -/
inductive ParameterPlace where
  | start
  | name
  | valueStart
  | value
  | quoted (nonempty : Bool)
  | escape
  | behindQuotes
  deriving DecidableEq, Repr

/-- Parameters are well formed: a name, an equals sign and a value each, with semicolons between. -/
def areParameters (place : ParameterPlace) : List Char → Bool
  | [] =>
    match place with
    | .start | .valueStart | .value | .behindQuotes => true
    | .name | .quoted _ | .escape => false
  | c :: rest =>
    match place with
    | .start => if c == ' ' then areParameters .start rest
      else isTokenChar c && areParameters .name rest
    | .name => if c == '=' then areParameters .valueStart rest
      else isTokenChar c && areParameters .name rest
    | .valueStart => if c == '"' then areParameters (.quoted false) rest
      else isTokenChar c && areParameters .value rest
    | .value => if c == ';' then areParameters .start rest
      else isTokenChar c && areParameters .value rest
    | .quoted nonempty =>
      if c == '"' && nonempty then areParameters .behindQuotes rest
      else if c == '\\' then areParameters .escape rest
      else isQuotable c && areParameters (.quoted true) rest
    | .escape => isQuotable c && areParameters (.quoted true) rest
    | .behindQuotes => if c == ';' then areParameters .start rest
      else c == ' ' && areParameters .behindQuotes rest

/-- A subtype names JSON. -/
def isJsonSubtype (cs : List Char) : Bool :=
  cs == "json".toList || "+json".toList.isSuffixOf cs

/-- Splits a token off the front. -/
def spanToken (cs : List Char) : List Char × List Char :=
  (cs.takeWhile isTokenChar, cs.dropWhile isTokenChar)

/-- A media type names JSON; letters count in either case. -/
def isJsonType (s : String) : Bool :=
  let (main, rest) := spanToken (s.toList.map Char.toLower)
  match rest with
  | '/' :: rest =>
    let (sub, rest) := spanToken rest
    main == "application".toList && isJsonSubtype sub && match rest with
      | [] => true
      | ';' :: rest => areParameters .start rest
      | _ => false
  | _ => false

end Rollout.Http
