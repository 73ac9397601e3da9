/-
Lines of a log that comes in pieces.

* `cutLines` cuts bytes at line ends;
* `logItems` gives the lines of a body: every line as soon as its end has come, and the last one,
  when it has no end, once the body is over;
* `LogReader` gives the same lines one at a time, and asks the body for more only when it has none;
* `FollowerState.run` is what a follower reports of all that it meets.

Design notes: a line is read as text as a whole, so a character that is split between two pieces
stays one character.  A body that fails shows the failure before its unfinished last line.
-/
import Rollout.Kubernetes.Discovery
import Rollout.Text.Utf8

namespace Rollout.Kubernetes

/-- What a body brings: bytes, or the failure that ends it. -/
inductive Piece where
  | bytes (bs : Bytes)
  | failure (e : ClusterError)
  deriving DecidableEq, Repr, Inhabited

/-- The byte that ends a line. -/
def lineEnd : UInt8 := 0x0A

/-- The complete lines at the front of some bytes, without their ends, and what is left. -/
def cutLines : Bytes → List Bytes × Bytes
  | [] => ([], [])
  | b :: bs =>
    if b == lineEnd then
      let (lines, rest) := cutLines bs
      ([] :: lines, rest)
    else match cutLines bs with
      | ([], rest) => ([], b :: rest)
      | (line :: lines, rest) => ((b :: line) :: lines, rest)

/-- What a reader of a log is given: a line, or the failure of the body. -/
abbrev LogItem := Except ClusterError String

/-- A line as an item. -/
def LogItem.ofLine (line : Bytes) : LogItem := .ok (Utf8.decodeLossy line)

/-- The item of a line that has no end. -/
def unfinished (buffer : Bytes) : List LogItem :=
  if buffer.isEmpty then [] else [.ofLine buffer]

/-- The items of the pieces to come, after some bytes without a line end. -/
def logItemsAfter (buffer : Bytes) : List Piece → List LogItem
  | [] => unfinished buffer
  | .failure e :: _ => .error e :: unfinished buffer
  | .bytes bs :: more =>
    let (lines, rest) := cutLines (buffer ++ bs)
    lines.map .ofLine ++ logItemsAfter rest more

/-- The items of a body. -/
def logItems (pieces : List Piece) : List LogItem := logItemsAfter [] pieces

/-! ### One item at a time -/

/-- The line at the front of some bytes, without its end, and what follows it. -/
def firstLine? : Bytes → Option (Bytes × Bytes)
  | [] => none
  | b :: bs =>
    if b == lineEnd then some ([], bs)
    else (firstLine? bs).map fun (line, rest) => (b :: line, rest)

/-- A reader in the middle of a body. -/
structure LogReader where
  /-- What the body brings when it is asked. -/
  pieces : List Piece
  /-- What it brought and no item was made of yet. -/
  buffer : Bytes := []
  /-- The body is not asked any more. -/
  ended : Bool := false
  deriving DecidableEq, Repr, Inhabited

namespace LogReader

/-- The next item and the reader behind it: a line of the buffer, if it has one, and else what comes
of the body. -/
def next : LogReader → Option (LogItem × LogReader)
  | ⟨pieces, buffer, ended⟩ =>
    match firstLine? buffer with
    | some (line, rest) => some (.ofLine line, ⟨pieces, rest, ended⟩)
    | none =>
      match ended, pieces with
      | true, _ => if buffer.isEmpty then none else some (.ofLine buffer, ⟨pieces, [], true⟩)
      | false, [] => next ⟨[], buffer, true⟩
      | false, .failure e :: more => some (.error e, ⟨more, buffer, true⟩)
      | false, .bytes bs :: more => next ⟨more, buffer ++ bs, false⟩
termination_by r => 2 * r.pieces.length + if r.ended then 0 else 1

/-- All that a reader gives, up to its end. -/
inductive Gives : LogReader → List LogItem → Prop where
  | ends {r : LogReader} (h : r.next = none) : Gives r []
  | item {r r' : LogReader} {i : LogItem} {is : List LogItem} (h : r.next = some (i, r'))
      (hs : Gives r' is) : Gives r (i :: is)

end LogReader

/-! ### Followers -/

/-- What an item is to a follower. -/
def LogItem.event : LogItem → LogEvent
  | .ok line => .line line
  | .error e => .failed e

/-- The events of a log that was opened. -/
def logEvents (pieces : List Piece) : List LogEvent :=
  .opened :: (logItems pieces).map LogItem.event ++ [.finished]

/-- Meets one thing after another; the state in the end, and what was reported. -/
def FollowerState.run (s : FollowerState) : List LogEvent → FollowerState × List FollowerReport
  | [] => (s, [])
  | e :: es =>
    let (s', reports) := s.step e
    let (last, more) := run s' es
    (last, reports ++ more)

end Rollout.Kubernetes
