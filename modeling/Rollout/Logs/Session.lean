/-
A log session of a cluster: discovery calls back while a writer empties the queue.

Discovery runs until it has to wait; then the writer empties the queue.  The session ends when a
write fails, when discovery returns, or when it has let go of its callbacks and waits.
-/
import Rollout.Kubernetes.Error
import Rollout.Logs.Tail
import Rollout.Plan.Error

namespace Rollout.Logs

/-- What discovery does next. -/
inductive Step where
  | report (c : Callback)
  /-- Waits for some milliseconds. -/
  | wait (ms : Nat)
  /-- Lets go of its callbacks; nothing is reported after that. -/
  | release
  deriving Repr, Inhabited

/-- How discovery goes on after its last step. -/
inductive Outcome where
  | returns (r : Except Kubernetes.ClusterError Unit)
  | hangs

/-- A session under way. -/
structure Session where
  tail : Tail
  outputs : Outputs
  queue : List Message := []
  /-- Discovery still holds its callbacks. -/
  holding : Bool := true
  now : Nat := 0
  /-- The answers to the containers that appeared. -/
  admitted : List Bool := []

namespace Session

/-- A callback, if there is still somebody to take it. -/
def report (s : Session) (c : Callback) : Session :=
  if s.holding then
    let answers := match c with
      | .enter source => [s.tail.admits source]
      | _ => []
    { s with queue := s.queue ++ s.tail.messages c, admitted := s.admitted ++ answers }
  else s

/-- Empties the queue. -/
def drain (s : Session) : Except Plan.Error Unit × Session :=
  let (r, queue, outputs) := s.outputs.drain s.queue
  (r.mapError .sink, { s with queue, outputs })

/-- Runs a session up to a time; no result when it is still running then. -/
def run (outcome : Outcome) (until_ : Nat) (s : Session) :
    List Step → Option (Except Plan.Error Unit) × Session
  | [] =>
    match s.drain with
    | (.error e, s) => (some (.error e), s)
    | (.ok (), s) =>
      match outcome with
      | .returns r => (some (r.mapError .cluster), s)
      | .hangs => (if s.holding then none else some (.ok ()), s)
  | .report c :: rest => run outcome until_ (s.report c) rest
  | .release :: rest => run outcome until_ { s with holding := false } rest
  | .wait ms :: rest =>
    match s.drain with
    | (.error e, s) => (some (.error e), s)
    | (.ok (), s) =>
      if !s.holding then (some (.ok ()), s)
      else if until_ < s.now + ms then (none, s)
      else run outcome until_ { s with now := s.now + ms } rest

end Session

end Rollout.Logs
