/-
A watch with its followers at work, under every schedule.

The loop that lists pods and the followers are tasks of their own, and nothing but the order of
each one's own steps is fixed.

* `System.Step` says which steps there are, when one may be taken and what is seen of it;
* `System.Run` says what is seen of a whole run, from the start.

Design notes: a step of the loop goes from one wait to the next, and so does a step of a follower.
Between two steps of the loop the steps of different followers commute, so their times need not be
in order; each follower's own times are, and no step is earlier than the last step of the loop.  A
follower that was stopped takes no step any more; it may go on being there for a while.
-/
import Rollout.Kubernetes.Discovery

namespace Rollout.Kubernetes

/-- What is called back about a container. -/
inductive Callback where
  | enter (admitted : Bool)
  | event (line : String)
  | error (text : String)
  | exit
  deriving DecidableEq, Repr

/-- One thing that is seen of a run. -/
inductive Seen where
  /-- A listing succeeded; these are the containers of the running pods. -/
  | listing (current : List ContainerKey)
  | call (key : ContainerKey) (c : Callback)
  /-- A follower asks for a log, and how far back. -/
  | asks (key : ContainerKey) (since : Option Nat)
  /-- What a follower meets when it has asked. -/
  | meets (key : ContainerKey) (e : LogEvent)
  deriving DecidableEq, Repr

/-- Everything that is seen of a run, each with its time. -/
abbrev Trace := List (Nat × Seen)

def Report.seen : Report → Seen
  | enter key admitted => .call key (.enter admitted)
  | exit key => .call key .exit

def FollowerReport.callback : FollowerReport → Callback
  | event line => .event line
  | error text => .error text

/-- What a follower can meet next: an answer while it opens a log, items while it reads one. -/
def FollowerState.expects : FollowerState → LogEvent → Bool
  | opening, .opened | opening, .openFailed _ => true
  | reading, .line _ | reading, .failed _ | reading, .finished => true
  | _, _ => false

/-! ### Followers at work -/

/-- The task of a follower. -/
structure Worker where
  id : Nat
  key : ContainerKey
  since : Option Nat
  /-- It has asked for its log. -/
  begun : Bool := false
  state : FollowerState := .opening
  aborted : Bool := false
  /-- The time of its last step. -/
  clock : Nat
  endedAt : Option Nat := none
  deriving DecidableEq, Repr

namespace Worker

def ofStart (now : Nat) (st : Start) : Worker :=
  { id := st.id, key := st.key, since := st.since, clock := now }

/-- Stops the task when its handle is one of those that were dropped. -/
def stopIn (dropped : List (ContainerKey × Nat)) (w : Worker) : Worker :=
  { w with aborted := w.aborted || dropped.any (·.2 == w.id) }

def begin (now : Nat) (w : Worker) : Worker :=
  { w with begun := true, clock := now }

/-- Takes what the log has next; the task is over when the follower is. -/
def meet (now : Nat) (e : LogEvent) (w : Worker) : Worker :=
  let state := (w.state.step e).1
  { w with state, clock := now, endedAt := if state = .ended then some now else w.endedAt }

/-- A task that was stopped is over some time later. -/
def cancel (now : Nat) (w : Worker) : Worker :=
  { w with clock := now, endedAt := some now }

end Worker

/-! ### Runs -/

/-- What the loop is waiting for. -/
inductive Phase where
  | tick
  | answer
  /-- Nothing: the watch has failed. -/
  | failed (e : ClusterError)
  deriving DecidableEq, Repr

structure System where
  watch : Watch := {}
  phase : Phase := .tick
  workers : List Worker := []
  /-- The time of the last step of the loop. -/
  clock : Nat := 0
  /-- The time of the latest step. -/
  latest : Nat := 0

namespace System

/-- The tasks that are over, with their ends. -/
def ended (s : System) : List (Nat × Nat) :=
  s.workers.filterMap fun w => w.endedAt.map (w.id, ·)

/-- The followers of a container that were not stopped. -/
def live (s : System) (key : ContainerKey) : List Worker :=
  s.workers.filter fun w => w.key == key && !w.aborted

/-- The handles of containers that are not listed any more. -/
def dropped (s : System) (current : List ContainerKey) : List (ContainerKey × Nat) :=
  s.watch.followers.handles.filter fun (key, _) => !current.contains key

/-- Puts a task in the place of the one of its number. -/
def setWorker (s : System) (w : Worker) : System :=
  { s with
    workers := s.workers.map fun v => if v.id = w.id then w else v
    latest := max s.latest w.clock }

/-- The watch without the containers that are not listed any more, and their exits. -/
def retained (s : System) (current : List ContainerKey) : Watch × List Report :=
  { s.watch with first := false }.retain current

/-- One step at a time, and what is seen of it.  A table has no order: the tasks that are over are
noticed in any order, and containers exit and are offered in any order. -/
inductive Step (s : System) (now : Nat) : List Seen → System → Prop where
  /-- The loop comes to a tick: it notices the tasks that are over and asks for the pods. -/
  | poll (done : List (Nat × Nat)) (hp : s.phase = .tick) (ht : s.latest ≤ now)
      (hd : done.Perm s.ended) :
      Step s now ((s.watch.reap done).2.map Report.seen)
        { watch := (s.watch.reap done).1, phase := .answer,
          workers := s.workers.filter (·.endedAt.isNone), clock := now, latest := now }
  /-- The pods are there. -/
  | listed (pods : List Pod) (current : List ContainerKey) (accept : ContainerKey → Bool)
      (exits : List Report) (hp : s.phase = .answer) (ht : s.latest ≤ now)
      (hc : current.Perm (runningContainers pods)) (he : exits.Perm (s.retained current).2) :
      Step s now
        (.listing current :: exits.map Report.seen
          ++ ((s.retained current).1.offerAll accept now current).2.1.map Report.seen)
        { watch := ((s.retained current).1.offerAll accept now current).1, phase := .tick,
          workers := s.workers.map (Worker.stopIn (s.dropped current))
            ++ ((s.retained current).1.offerAll accept now current).2.2.map (Worker.ofStart now),
          clock := now, latest := now }
  /-- The listing failed, and the watch goes on. -/
  | missed (e : ClusterError) (w : Watch) (hp : s.phase = .answer) (ht : s.latest ≤ now)
      (hw : s.watch.listingFailed e = .ok w) :
      Step s now [] { s with watch := w, phase := .tick, clock := now, latest := now }
  /-- The listing failed, and the watch with it. -/
  | fails (e f : ClusterError) (hp : s.phase = .answer) (ht : s.latest ≤ now)
      (hw : s.watch.listingFailed e = .error f) :
      Step s now [] { s with phase := .failed f, clock := now, latest := now }
  /-- A follower asks for its log. -/
  | begins (w : Worker) (hw : w ∈ s.workers) (ha : w.aborted = false) (hb : w.begun = false)
      (hl : s.clock ≤ now) (ht : w.clock ≤ now) :
      Step s now [.asks w.key w.since] (s.setWorker (w.begin now))
  /-- A follower takes what its log has next. -/
  | follows (w : Worker) (e : LogEvent) (hw : w ∈ s.workers) (ha : w.aborted = false)
      (hb : w.begun = true) (he : w.state.expects e) (hl : s.clock ≤ now) (ht : w.clock ≤ now) :
      Step s now
        (.meets w.key e :: (w.state.step e).2.map fun r => .call w.key r.callback)
        (s.setWorker (w.meet now e))
  /-- A task that was stopped is over. -/
  | cancels (w : Worker) (hw : w ∈ s.workers) (ha : w.aborted = true) (hn : w.endedAt = none)
      (hl : s.clock ≤ now) (ht : w.clock ≤ now) :
      Step s now [] (s.setWorker (w.cancel now))

/-- What is seen from the start of a watch up to a state of it. -/
inductive Run : Trace → System → Prop where
  | start : Run [] {}
  | step {trace : Trace} {s s' : System} {now : Nat} {seen : List Seen} (hr : Run trace s)
      (hs : s.Step now seen s') : Run (trace ++ seen.map (now, ·)) s'

end System

/-- The callbacks about one container, in order. -/
def Trace.callbacks (trace : Trace) (key : ContainerKey) : List Callback :=
  trace.filterMap fun
    | (_, .call k c) => if k = key then some c else none
    | _ => none

end Rollout.Kubernetes
