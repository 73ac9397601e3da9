/-
Shell scripts: commands, and how they are read from tokens.

The language is the common core of shells: simple commands with redirections, pipelines, lists
with `;`, `&`, `&&` and `||`, the compound commands and functions.  A script is read line by line,
because a line that cannot be read does not keep those before it from running.

Design notes: the readers take a bound on the nesting; a token that begins a nested list takes
six of it, so eight for each token are enough.
-/
import Rollout.Shell.Word

namespace Rollout.Shell

/-- Where a descriptor leads: the arrow and its target. -/
structure Redirect where
  descriptor : Option Nat
  arrow : String
  target : Word
  deriving Inhabited, Repr

/-- When a command is run, given how the one before it ended. -/
inductive Condition where
  | always
  | afterSuccess
  | afterFailure
  deriving DecidableEq, Repr, Inhabited

inductive Command where
  | simple (words : List Word) (redirects : List Redirect)
  /-- Commands in brackets; with `apart`, in a shell of their own. -/
  | group (apart : Bool) (body : List (Condition × Command))
  | redirected (body : Command) (redirects : List Redirect)
  | forEach (var : String) (words : Option (List Word)) (body : List (Condition × Command))
  /-- Runs the body as long as the condition's success is as wanted. -/
  | loop (wanted : Bool) (cond body : List (Condition × Command))
  | branch (cond yes no : List (Condition × Command))
  | choose (subject : Word) (arms : List (List Word × List (Condition × Command)))
  | define (name : String) (body : Command)
  | pipeline (negated : Bool) (commands : List Command)
  | background (body : List (Condition × Command))
  deriving Inhabited

abbrev Commands := List (Condition × Command)

/-! ### Tokens -/

/-- The text of a word that is neither quoted nor expanded. -/
def bare? : Token → Option String
  | .word [.text s false] => some s
  | _ => none

def headBare? (ts : List Token) : Option String := ts.head?.bind bare?

/-- Words that end a list of commands. -/
def closing : List String := ["done", "do", "then", "else", "elif", "fi", "esac", "\x7d"]

/-- The next token ends a list of commands. -/
def atEnd : List Token → Bool
  | [] => true
  | .op s :: _ => s == ")" || s == ";;"
  | t :: _ => ((bare? t).map closing.contains).getD false

/-- How a token is named in a message. -/
def describe : List Token → String
  | [] => "end of file"
  | .op "\n" :: _ => "newline"
  | .op s :: _ => s!"\"{s}\""
  | .arrow .. :: _ => "redirection"
  | t :: _ => match bare? t with
    | some s => if closing.contains s then s!"\"{s}\"" else "word"
    | none => "word"

def unexpected (ts : List Token) : String := describe ts ++ " unexpected"

/-- Drops the ends of lines in front. -/
def skipLines (ts : List Token) : List Token :=
  ts.dropWhile fun t => match t with
    | .op s => s == "\n"
    | _ => false

/-- Takes a word that has to come next. -/
def expect (s : String) (ts : List Token) : Except String (List Token) :=
  if headBare? ts == some s then .ok (ts.drop 1)
  else .error s!"{unexpected ts} (expecting \"{s}\")"

def expectOp (s : String) : List Token → Except String (List Token)
  | .op o :: rest =>
    if o == s then .ok rest else .error s!"{unexpected (.op o :: rest)} (expecting \"{s}\")"
  | ts => .error s!"{unexpected ts} (expecting \"{s}\")"

/-- The words and redirections in front. -/
def takeSimple : List Token → List Word × List Redirect × List Token
  | .arrow d s :: .word w :: rest =>
    let (ws, rs, rest) := takeSimple rest
    (ws, ⟨d, s, w⟩ :: rs, rest)
  | .word w :: rest =>
    let (ws, rs, rest) := takeSimple rest
    (w :: ws, rs, rest)
  | rest => ([], [], rest)

/-- The words in front. -/
def takeWords : List Token → List Word × List Token
  | .word w :: rest => (w :: (takeWords rest).1, (takeWords rest).2)
  | rest => ([], rest)

/-- The redirections in front. -/
def takeRedirects : List Token → List Redirect × List Token
  | .arrow d s :: .word w :: rest => (⟨d, s, w⟩ :: (takeRedirects rest).1, (takeRedirects rest).2)
  | rest => ([], rest)

/-- The patterns of a choice, up to the closing parenthesis. -/
def takePatterns : List Token → Except String (List Word × List Token)
  | .word w :: .op "|" :: rest => do
    let (ws, rest) ← takePatterns rest
    .ok (w :: ws, rest)
  | .word w :: .op ")" :: rest => .ok ([w], rest)
  | .word _ :: rest => .error s!"{unexpected rest} (expecting \")\")"
  | [] => .error s!"{unexpected []} (expecting \")\")"
  | ts => .error (unexpected ts)

/-- The name of a function whose definition begins here, and what follows its parentheses. -/
def functionName? : List Token → Option (String × List Token)
  | .word [.text s false] :: .op "(" :: .op ")" :: rest => some (s, rest)
  | _ => none

/-- The text can name a variable. -/
def isName (s : String) : Bool :=
  match s.toList with
  | c :: cs => isNameStart c && cs.all isNameChar
  | [] => false

/-! ### Commands -/

mutual

/-- One command that is no pipeline. -/
def takeCommand : Nat → List Token → Except String (Command × List Token)
  | 0, ts => .error (unexpected ts)
  | depth + 1, ts =>
    match functionName? ts with
    | some (name, rest) => do
      let (body, rest) ← takeCommand depth (skipLines rest)
      .ok (.define name body, rest)
    | none =>
      match takeCompound depth ts with
      | some result => do
        let (c, rest) ← result
        let (rs, rest) := takeRedirects rest
        .ok (if rs.isEmpty then c else .redirected c rs, rest)
      | none =>
        match takeSimple ts with
        | ([], [], _) => .error (unexpected ts)
        | ([_], [], .op "(" :: rest) => .error s!"{unexpected rest} (expecting \")\")"
        | (ws, rs, rest) => .ok (.simple ws rs, rest)

/-- A compound command, if one begins here. -/
def takeCompound : Nat → List Token → Option (Except String (Command × List Token))
  | 0, _ => none
  | depth + 1, ts =>
    match ts, headBare? ts with
    | .op "(" :: rest, _ => some do
      let (body, rest) ← takeSome depth rest
      .ok (.group true body, ← expectOp ")" rest)
    | _ :: rest, some "\x7b" => some do
      let (body, rest) ← takeSome depth rest
      .ok (.group false body, ← expect "\x7d" rest)
    | _ :: rest, some "if" => some (takeBranch depth rest)
    | _ :: rest, some "while" => some (takeLoop depth true rest)
    | _ :: rest, some "until" => some (takeLoop depth false rest)
    | _ :: rest, some "for" => some (takeFor depth rest)
    | _ :: rest, some "case" => some do
      match rest with
      | .word subject :: rest => do
        let rest ← expect "in" (skipLines rest)
        let (arms, rest) ← takeArms depth (skipLines rest)
        .ok (.choose subject arms, ← expect "esac" rest)
      | rest => .error s!"{unexpected rest} (expecting word)"
    | _, _ => none

/-- A conditional, after its first word. -/
def takeBranch : Nat → List Token → Except String (Command × List Token)
  | 0, ts => .error (unexpected ts)
  | depth + 1, ts => do
    let (cond, ts) ← takeSome depth ts
    let ts ← expect "then" ts
    let (yes, ts) ← takeSome depth ts
    match headBare? ts with
    | some "else" =>
      let (no, ts) ← takeSome depth (ts.drop 1)
      .ok (.branch cond yes no, ← expect "fi" ts)
    | some "elif" =>
      let (no, ts) ← takeBranch depth (ts.drop 1)
      .ok (.branch cond yes [(.always, no)], ts)
    | _ => .ok (.branch cond yes [], ← expect "fi" ts)

/-- A loop with a condition, after its first word. -/
def takeLoop : Nat → Bool → List Token → Except String (Command × List Token)
  | 0, _, ts => .error (unexpected ts)
  | depth + 1, wanted, ts => do
    let (cond, ts) ← takeSome depth ts
    let (body, ts) ← takeSome depth (← expect "do" ts)
    .ok (.loop wanted cond body, ← expect "done" ts)

/-- A loop over words, after its first word. -/
def takeFor : Nat → List Token → Except String (Command × List Token)
  | 0, ts => .error (unexpected ts)
  | depth + 1, ts =>
    match (headBare? ts).filter isName with
    | none => .error "Bad for loop variable"
    | some var => do
      let rest := skipLines (ts.drop 1)
      let (words, rest) := if headBare? rest == some "in" then
          ((some (takeWords (rest.drop 1)).1), (takeWords (rest.drop 1)).2)
        else (none, rest)
      let rest := match rest with
        | .op ";" :: rest => rest
        | rest => rest
      let (body, rest) ← takeSome depth (← expect "do" (skipLines rest))
      .ok (.forEach var words body, ← expect "done" rest)

/-- The arms of a choice, up to its last word. -/
def takeArms : Nat → List Token → Except String (List (List Word × Commands) × List Token)
  | 0, ts => .error (unexpected ts)
  | depth + 1, ts =>
    if headBare? ts == some "esac" then .ok ([], ts)
    else do
      let ts := match ts with
        | .op "(" :: rest => rest
        | ts => ts
      let (patterns, ts) ← takePatterns ts
      let (body, ts) ← takeList depth false ts
      match ts with
      | .op ";;" :: rest =>
        let (arms, rest) ← takeArms depth (skipLines rest)
        .ok ((patterns, body) :: arms, rest)
      | ts =>
        if headBare? ts == some "esac" then .ok ([(patterns, body)], ts)
        else .error s!"{unexpected ts} (expecting \";;\")"

/-- A pipeline, with the condition on which it is run. -/
def takePipeline : Nat → Condition → List Token → Except String (Commands × List Token)
  | 0, _, ts => .error (unexpected ts)
  | depth + 1, condition, ts => do
    let negated := headBare? ts == some "!"
    let (first, ts) ← takeCommand depth (if negated then ts.drop 1 else ts)
    let (more, ts) ← takePiped depth ts
    let c := if more.isEmpty && !negated then first else .pipeline negated (first :: more)
    match ts with
    | .op "&&" :: rest =>
      let (cs, rest) ← takePipeline depth .afterSuccess (skipLines rest)
      .ok ((condition, c) :: cs, rest)
    | .op "||" :: rest =>
      let (cs, rest) ← takePipeline depth .afterFailure (skipLines rest)
      .ok ((condition, c) :: cs, rest)
    | ts => .ok ([(condition, c)], ts)

/-- The further commands of a pipeline. -/
def takePiped : Nat → List Token → Except String (List Command × List Token)
  | 0, ts => .ok ([], ts)
  | depth + 1, ts =>
    match ts with
    | .op "|" :: rest => do
      let (c, rest) ← takeCommand depth (skipLines rest)
      let (cs, rest) ← takePiped depth rest
      .ok (c :: cs, rest)
    | ts => .ok ([], ts)

/-- Commands up to a word or an operator that ends them, or up to the end of the line. -/
def takeList : Nat → Bool → List Token → Except String (Commands × List Token)
  | 0, _, ts => .error (unexpected ts)
  | depth + 1, oneLine, ts =>
    let ts := skipLines ts
    if atEnd ts then .ok ([], ts)
    else do
      let (cs, ts) ← takePipeline depth .always ts
      match ts with
      | .op "\n" :: rest =>
        if oneLine then .ok (cs, ts)
        else
          let (more, rest) ← takeList depth oneLine rest
          .ok (cs ++ more, rest)
      | .op s :: rest =>
        if s == ";" || s == "&" then
          let cs := if s == "&" then [(.always, .background cs)] else cs
          match oneLine, rest with
          | true, .op "\n" :: _ => .ok (cs, rest)
          | _, _ =>
            let (more, rest) ← takeList depth oneLine rest
            .ok (cs ++ more, rest)
        else .ok (cs, ts)
      | ts => .ok (cs, ts)

/-- Commands, of which there has to be one before a word that ends them. -/
def takeSome : Nat → List Token → Except String (Commands × List Token)
  | 0, ts => .error (unexpected ts)
  | depth + 1, ts => do
    let (cs, rest) ← takeList depth false ts
    if cs.isEmpty && !rest.isEmpty then .error (unexpected rest) else .ok (cs, rest)

end

/-- The commands of the first line, and the tokens after it. -/
def takeLine (ts : List Token) : Except String (Commands × List Token) := do
  match ← takeList (8 * ts.length + 8) true ts with
  | (cs, []) => .ok (cs, [])
  | (cs, .op "\n" :: rest) => .ok (cs, rest)
  | (_, rest) => .error (unexpected rest)

/-- How many lines tokens reach over. -/
def countLines (ts : List Token) : Nat :=
  ts.countP fun t => match t with
    | .op s => s == "\n"
    | _ => false

end Rollout.Shell
