/-
Discovery of containers by listing pods again and again.

A watch keeps one follower for every running container that was admitted.  This file holds its
state and the steps it takes:

* `Watch.reap` notices followers that have ended;
* `Watch.listed` and `Watch.listingFailed` take the answer to a listing;
* `Follower` is what one follower does with the log it reads.

Design notes: a follower is a task of its own and goes by a number that is never used again.  Two
tables tie containers and tasks together.  Stopping a follower removes it from one of them only, so
a task that ends later is told apart from the follower that took its place.  Times are in
milliseconds.
-/
import Rollout.Kubernetes.Error

namespace Rollout.Kubernetes

/-- A pod as a listing shows it. -/
structure Pod where
  name : String
  containers : List String := []
  phase : Option String := none
  deriving DecidableEq, Repr, Inhabited

/-- A container of a pod. -/
structure ContainerKey where
  pod : String
  container : String
  deriving DecidableEq, Repr, Inhabited

/-- A pod runs when it says so or says nothing. -/
def Pod.isRunning (p : Pod) : Bool :=
  p.phase == none || p.phase == some "Running"

/-- The containers of running pods, each once. -/
def runningContainers (pods : List Pod) : List ContainerKey :=
  ((pods.filter Pod.isRunning).flatMap fun p => p.containers.map (⟨p.name, ·⟩)).eraseDups

/-- The containers being followed, and when the others' last logs ended. -/
structure Followers where
  /-- The live follower of a container. -/
  handles : List (ContainerKey × Nat) := []
  /-- The container that a task was started for. -/
  keys : List (Nat × ContainerKey) := []
  /-- When the last log of a container ended, so that the next follower need not repeat it. -/
  ended : List (ContainerKey × Nat) := []
  deriving Repr, Inhabited

namespace Followers

def contains (f : Followers) (key : ContainerKey) : Bool :=
  (f.handles.lookup key).isSome

/-- Adds a follower for a container that has none. -/
def insert (f : Followers) (key : ContainerKey) (id : Nat) : Followers :=
  { f with
    handles := (key, id) :: f.handles.filter (·.1 != key)
    keys := (id, key) :: f.keys.filter (·.1 != id) }

/-- Stops following a container; its task keeps its number. -/
def abort (f : Followers) (key : ContainerKey) : Followers :=
  { f with handles := f.handles.filter (·.1 != key) }

/-- Forgets a task.  Gives its container when it was the live follower of it. -/
def finish (f : Followers) (id : Nat) : Option ContainerKey × Followers :=
  match f.keys.lookup id with
  | none => (none, f)
  | some key =>
    let f := { f with keys := f.keys.filter (·.1 != id) }
    if f.handles.lookup key == some id then (some key, f.abort key) else (none, f)

/-- Marks the end of a container's log. -/
def markEnded (f : Followers) (key : ContainerKey) (at_ : Nat) : Followers :=
  { f with ended := (key, at_) :: f.ended.filter (·.1 != key) }

end Followers

/-- What a watch reports of a container. -/
inductive Report where
  | enter (key : ContainerKey) (admitted : Bool)
  | exit (key : ContainerKey)
  deriving DecidableEq, Repr

/-- A follower to be started: its task, its container, and how far back it has to read. -/
structure Start where
  id : Nat
  key : ContainerKey
  since : Option Nat
  deriving DecidableEq, Repr

structure Watch where
  followers : Followers := {}
  /-- The containers that were not admitted. -/
  skipped : List ContainerKey := []
  /-- No listing has succeeded yet. -/
  first : Bool := true
  nextId : Nat := 0
  deriving Repr, Inhabited

namespace Watch

/-- Notices one task that has ended. -/
def reapOne (w : Watch) (id : Nat) (at_ : Nat) : Watch × List Report :=
  match w.followers.finish id with
  | (some key, f) => ({ w with followers := f.markEnded key at_ }, [.exit key])
  | (none, f) => ({ w with followers := f }, [])

/-- Notices the tasks that have ended, in the order given. -/
def reap (w : Watch) : List (Nat × Nat) → Watch × List Report
  | [] => (w, [])
  | (id, at_) :: rest =>
    let (w, reports) := w.reapOne id at_
    let (w, more) := w.reap rest
    (w, reports ++ more)

/-- Drops what is known about containers that are not listed any more. -/
def retain (w : Watch) (current : List ContainerKey) : Watch × List Report :=
  let gone := w.followers.handles.filter fun (key, _) => !current.contains key
  ({ w with
      followers := { w.followers with
        handles := w.followers.handles.filter fun (key, _) => current.contains key
        ended := w.followers.ended.filter fun (key, _) => current.contains key }
      skipped := w.skipped.filter current.contains },
    gone.map fun (key, _) => .exit key)

/-- Offers one listed container that is new. -/
def offer (w : Watch) (accept : ContainerKey → Bool) (now : Nat) (key : ContainerKey) :
    Watch × List Report × List Start :=
  if w.followers.contains key || w.skipped.contains key then (w, [], [])
  else if accept key then
    let since := (w.followers.ended.lookup key).map (now - ·)
    let followers := { w.followers with ended := w.followers.ended.filter (·.1 != key) }
    ({ w with followers := followers.insert key w.nextId, nextId := w.nextId + 1 },
      [.enter key true], [⟨w.nextId, key, since⟩])
  else ({ w with skipped := key :: w.skipped }, [.enter key false], [])

/-- Offers listed containers in order. -/
def offerAll (w : Watch) (accept : ContainerKey → Bool) (now : Nat) :
    List ContainerKey → Watch × List Report × List Start
  | [] => (w, [], [])
  | key :: rest =>
    let (w, reports, starts) := w.offer accept now key
    let (w, reports', starts') := w.offerAll accept now rest
    (w, reports ++ reports', starts ++ starts')

/-- Takes a listing: containers that are gone exit, new ones are offered. -/
def listed (w : Watch) (accept : ContainerKey → Bool) (now : Nat) (pods : List Pod) :
    Watch × List Report × List Start :=
  let current := runningContainers pods
  let (w, exits) := { w with first := false }.retain current
  let (w, reports, starts) := w.offerAll accept now current
  (w, exits ++ reports, starts)

/-- Takes a failed listing: the first one ends the watch, a later one changes nothing. -/
def listingFailed (w : Watch) (e : ClusterError) : Except ClusterError Watch :=
  if w.first then .error e else .ok w

end Watch

/-! ### Followers -/

/-- What a follower is doing. -/
inductive FollowerState where
  | opening
  | reading
  | ended
  deriving DecidableEq, Repr, Inhabited

/-- What a follower meets. -/
inductive LogEvent where
  | opened
  | openFailed (e : ClusterError)
  | line (text : String)
  | failed (e : ClusterError)
  | finished
  deriving DecidableEq, Repr

/-- What a follower reports. -/
inductive FollowerReport where
  | event (line : String)
  | error (text : String)
  deriving DecidableEq, Repr

/-- One step of a follower.  A failure ends it, and what comes after its end is ignored. -/
def FollowerState.step : FollowerState → LogEvent → FollowerState × List FollowerReport
  | .opening, .opened => (.reading, [])
  | .opening, .openFailed e => (.ended, [.error e.message])
  | .reading, .line text => (.reading, [.event text])
  | .reading, .failed e => (.ended, [.error e.message])
  | .reading, .finished => (.ended, [])
  | s, _ => (s, [])

/-! ### The clock -/

/-- How late a tick may be and still keep to the timetable. -/
def tickTolerance : Nat := 5

/-- The tick after one that was due at a time and came at another: a late one delays the rest. -/
def nextTick (interval due came : Nat) : Nat :=
  if due + tickTolerance < came then came + interval else due + interval

/-- The pause between listings, in milliseconds. -/
def pollInterval : Nat := 2000

end Rollout.Kubernetes
