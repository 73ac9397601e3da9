/-
A log session under every schedule.

Discovery and the writer take turns, in any order and as often as it happens.  In a turn discovery
goes on to where it waits next or to its end, and the writer handles one message, or ends the
session if there is nothing left to wait for.

* `Session.advance` is a turn of discovery, `Race.turn` a turn of either;
* `Race.run` takes one turn after another.

Design notes: `Session.run` is one of these schedules, the one in which the writer empties the queue
whenever discovery waits.  A turn in which discovery is still waiting changes nothing and is left
out.  The writer's turn is a single message, since it may be interrupted behind any.
-/
import Rollout.Logs.Session

namespace Rollout.Logs

/-- Whose turn it is. -/
inductive Turn where
  | discovery
  | writer
  deriving DecidableEq, Repr

/-- What discovery returns, if it ever does. -/
def Outcome.returned? : Outcome → Option (Except Kubernetes.ClusterError Unit)
  | returns r => some r
  | hangs => none

/-- A session, and how far the two sides are. -/
structure Race where
  session : Session
  /-- The steps that discovery has still to take. -/
  ahead : List Step
  /-- What discovery has returned. -/
  returned : Option (Except Kubernetes.ClusterError Unit) := none
  /-- The failure of a write. -/
  failure : Option Host.Error := none
  /-- What the session has ended with. -/
  result : Option (Except Plan.Error Unit) := none

/-- Goes on with discovery to where it waits next, or to its end. -/
def Session.advance (outcome : Outcome) (s : Session) : List Step → Race
  | [] => { session := s, ahead := [], returned := outcome.returned? }
  | .report c :: rest => advance outcome (s.report c) rest
  | .release :: rest => advance outcome { s with holding := false } rest
  | .wait ms :: rest => { session := { s with now := s.now + ms }, ahead := rest }

namespace Race

/-- What the session ends with when the queue is empty: the result of discovery, or success once
discovery has let go of its callbacks. -/
def due? (x : Race) : Option (Except Plan.Error Unit) :=
  match x.returned with
  | some r => some (r.mapError .cluster)
  | none => if x.session.holding then none else some (.ok ())

/-- The writer handles the first message of the queue; without one, the session ends if that is
due. -/
def writeOne (x : Race) : Race :=
  match x.session.queue with
  | [] => { x with result := x.due? }
  | m :: queue =>
    match x.session.outputs.write m with
    | (.ok (), outputs) => { x with session := { x.session with queue, outputs } }
    | (.error e, outputs) =>
      { x with session := { x.session with queue, outputs }, failure := some e,
               result := some (.error (.sink e)) }

/-- One turn; nothing more happens when the session has ended, or when discovery has. -/
def turn (outcome : Outcome) (x : Race) : Turn → Race
  | .discovery =>
    match x.result, x.returned with
    | none, none => x.session.advance outcome x.ahead
    | _, _ => x
  | .writer =>
    match x.result with
    | none => x.writeOne
    | some _ => x

/-- One turn after another. -/
def run (outcome : Outcome) (x : Race) (turns : List Turn) : Race :=
  turns.foldl (turn outcome) x

/-- The beginning of a session whose discovery takes these steps. -/
def ofSteps (t : Tail) (o : Outputs) (steps : List Step) : Race :=
  { session := { tail := t, outputs := o }, ahead := steps }

end Race

end Rollout.Logs
