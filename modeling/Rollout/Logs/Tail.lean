/-
Following the logs of many containers at once.

Whoever follows a container calls back on a `Tail`, which turns every call into messages on one
queue.  The queue has a single reader: `Writer.drain` writes lines to one sink and notices to the
other, in the order of the queue, and stops at the first write that fails.
-/
import Rollout.Logs.Sink
import Rollout.Pattern.Basic
import Rollout.Text.Style

namespace Rollout.Logs

/-- A container of a workload. -/
structure Source where
  workload : String
  container : String
  deriving DecidableEq, Repr, Inhabited

/-- One line from a container, with its workload and container in front; line ends at its end are
dropped and one is put there. -/
def formatLine (s : Source) (message : String) : String :=
  let shown := Text.trimRight (fun c => c == '\r' || c == '\n') message
  s!"{s.workload}:{s.container} {shown}\n"

inductive Message where
  | line (text : String)
  | notice (text : String)
  deriving DecidableEq, Repr, Inhabited

/-- What a follower reports. -/
inductive Callback where
  /-- A container appeared. -/
  | enter (s : Source)
  /-- A line arrived. -/
  | event (s : Source) (message : String)
  /-- A container went away. -/
  | exit (s : Source)
  /-- Following a container failed. -/
  | error (s : Source) (text : String)
  deriving DecidableEq, Repr, Inhabited

/-- Which containers are followed, and how that is told. -/
structure Tail where
  /-- A container is followed when one of these matches; without any, every container is. -/
  filters : List Pattern := []
  /-- Says nothing when containers come and go. -/
  quiet : Bool := false
  color : Bool := false

namespace Tail

/-- A filter matches a workload or a container by its name. -/
def admits (t : Tail) (s : Source) : Bool :=
  t.filters.isEmpty || t.filters.any fun p => p.isMatch s.workload || p.isMatch s.container

def entered (t : Tail) (s : Source) : Message :=
  .notice (Text.Style.yellow.paint t.color
    s!"==> Detected container {s.workload}:{s.container}" ++ "\n")

def left (t : Tail) (s : Source) : Message :=
  .notice (Text.Style.yellow.paint t.color
    s!"==> Leaving container {s.workload}:{s.container}" ++ "\n")

def failed (t : Tail) (s : Source) (text : String) : Message :=
  .notice (Text.Style.red.paint t.color
    s!"==> Warning: Error while tailing container {s.workload}:{s.container}: {text}" ++ "\n")

/-- The messages that a callback puts on the queue. -/
def messages (t : Tail) : Callback → List Message
  | .enter s => if t.admits s && !t.quiet then [t.entered s] else []
  | .event s message => [.line (formatLine s message)]
  | .exit s => if t.quiet then [] else [t.left s]
  | .error s text => [t.failed s text]

end Tail

/-- Where lines and where notices go. -/
structure Outputs where
  out : Sink := {}
  err : Sink := {}
  deriving DecidableEq, Repr, Inhabited

/-- Writes one message. -/
def Outputs.write (o : Outputs) : Message → Except Host.Error Unit × Outputs
  | .line text =>
    let (r, out) := o.out.write (Utf8.encode text)
    (r, { o with out })
  | .notice text =>
    let (r, err) := o.err.write (Utf8.encode text)
    (r, { o with err })

/-- Writes the queue up to the first failure; the message that failed is off the queue. -/
def Outputs.drain (o : Outputs) : List Message → Except Host.Error Unit × List Message × Outputs
  | [] => (.ok (), [], o)
  | m :: rest =>
    match o.write m with
    | (.ok (), o) => o.drain rest
    | (.error e, o) => (.error e, rest, o)

end Rollout.Logs
