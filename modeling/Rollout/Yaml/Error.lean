/-
Why a YAML text cannot be read, or does not give a value of the expected type.
-/

namespace Rollout.Yaml

inductive Error where
  | forbiddenCharacter
  /-- A character that no token begins with. -/
  | unexpectedCharacter
  /-- A quoted text that does not end. -/
  | unclosedText
  | badEscape
  | badAnchor
  | badTag
  | badDirective
  | badBlockHeader
  | tabIndentation
  /-- Something that has to be a key has no colon after it. -/
  | missingColon
  /-- An entry, key or value indicator where none may stand. -/
  | misplacedIndicator
  /-- A token that cannot stand where it stands. -/
  | unexpectedToken
  | unknownTagHandle
  | unknownAnchor (name : String)
  | severalDocuments
  | tooDeep
  | tooManyAliases
  | unexpectedType (expected : String)
  | outOfRange (expected : String)
  | missingField (name : String)
  | duplicateField (name : String)
  | unknownVariant (name : String) (known : List String)
  | wrongLength (expected : String)
  deriving DecidableEq, Repr, Inhabited

def Error.message : Error → String
  | forbiddenCharacter => "control characters are not allowed"
  | unexpectedCharacter => "found a character that cannot start any token"
  | unclosedText => "a quoted text does not end"
  | badEscape => "unknown or incomplete escape"
  | badAnchor => "an anchor or alias needs a name of letters and digits"
  | badTag => "malformed tag"
  | badDirective => "malformed or unknown directive"
  | badBlockHeader => "malformed header of a block text"
  | tabIndentation => "found a tab where indentation is expected"
  | missingColon => "could not find expected ':'"
  | misplacedIndicator => "an entry, key or value is not allowed here"
  | unexpectedToken => "did not find what is expected here"
  | unknownTagHandle => "undefined tag handle"
  | unknownAnchor name => s!"unknown anchor {name}"
  | severalDocuments => "more than one document"
  | tooDeep => "recursion limit exceeded"
  | tooManyAliases => "repetition limit exceeded"
  | unexpectedType expected => s!"invalid type, expected {expected}"
  | outOfRange expected => s!"invalid value, expected {expected}"
  | missingField name => s!"missing field {name}"
  | duplicateField name => s!"duplicate field {name}"
  | unknownVariant name known => s!"unknown variant {name}, expected one of " ++ ", ".intercalate known
  | wrongLength expected => s!"invalid length, expected {expected}"

end Rollout.Yaml
