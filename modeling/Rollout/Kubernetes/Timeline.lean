/-
What a watch does over time, when the cluster's answers and logs are known in advance.

`Timeline.run` steps from listing to listing.  Between two listings the followers read what their
scripts have ready; at the same instant the listing goes first.
-/
import Rollout.Kubernetes.Discovery

namespace Rollout.Kubernetes

/-- One thing in the script of a log. -/
inductive ScriptItem where
  | line (text : String)
  | wait (ms : Nat)
  | error (e : ClusterError)
  | hang
  deriving Repr, Inhabited

/-- A log: it cannot be opened, or it has items and then ends. -/
inductive Script where
  | openError (e : ClusterError)
  | items (is : List ScriptItem)
  deriving Repr, Inhabited

/-- The events of script items from a time on. -/
def ScriptItem.events (now : Nat) : List ScriptItem → List (Nat × LogEvent)
  | [] => [(now, .finished)]
  | .line text :: rest => (now, .line text) :: events now rest
  | .wait ms :: rest => events (now + ms) rest
  | .error e :: _ => [(now, .failed e)]
  | .hang :: _ => []

def Script.events (now : Nat) : Script → List (Nat × LogEvent)
  | .openError e => [(now, .openFailed e)]
  | .items is => (now, .opened) :: ScriptItem.events now is

/-- The answer to a listing and how long it takes. -/
structure Listing where
  delay : Nat := 0
  answer : Except ClusterError (List Pod)

/-- What is seen of one container. -/
inductive Record where
  | enter (admitted : Bool)
  | follow (since : Option Nat)
  | event (line : String)
  | error (text : String)
  | exit
  deriving Repr

/-- A follower at work: its state and the events to come. -/
structure Task where
  id : Nat
  key : ContainerKey
  state : FollowerState := .opening
  /-- When it began, and how far back it reads; until it has. -/
  begins : Option (Nat × Option Nat)
  pending : List (Nat × LogEvent)
  /-- When it ended, if it did. -/
  endedAt : Option Nat := none

/-- Stops a task that is not the follower of its container any more; it is over then. -/
def Task.stop (time : Nat) (f : Followers) (t : Task) : Task :=
  if f.handles.lookup t.key == some t.id then t
  else { t with begins := none, pending := [], endedAt := some (t.endedAt.getD time) }

/-- What the watch is told and what it is asked. -/
structure Setting where
  interval : Nat
  accept : ContainerKey → Bool
  listing : Nat → Listing
  script : ContainerKey → Nat → Script

structure Timeline where
  watch : Watch := {}
  tasks : List Task := []
  /-- How many logs were opened for a container. -/
  opened : List (ContainerKey × Nat) := []
  /-- When each listing began. -/
  polls : List Nat := []
  records : List (ContainerKey × Nat × Record) := []

namespace Timeline

/-- Takes the events of a task before a time. -/
def advanceEvents (limit : Nat) (t : Task) :
    List (Nat × LogEvent) → Task × List (Nat × Record)
  | [] => ({ t with pending := [] }, [])
  | (time, e) :: rest =>
    if time < limit then
      let (state, reports) := t.state.step e
      let shown := reports.map fun r => (time, match r with
        | .event line => Record.event line
        | .error text => .error text)
      let endedAt := if state == .ended && t.endedAt.isNone then some time else t.endedAt
      let (t, more) := advanceEvents limit { t with state, endedAt } rest
      (t, shown ++ more)
    else ({ t with pending := (time, e) :: rest }, [])

/-- Begins a task, if it has not begun and its time has come. -/
def beginTask (s : Setting) (limit : Nat) (tl : Timeline) (t : Task) : Timeline × Task :=
  match t.begins with
  | some (time, since) =>
    if time < limit then
      let count := (tl.opened.lookup t.key).getD 0
      let tl := { tl with
        opened := (t.key, count + 1) :: tl.opened.filter (·.1 != t.key)
        records := tl.records ++ [(t.key, time, .follow since)] }
      (tl, { t with begins := none, pending := (s.script t.key count).events time })
    else (tl, t)
  | none => (tl, t)

/-- Lets one task run up to a time. -/
def advanceTask (s : Setting) (limit : Nat) (tl : Timeline) (t : Task) : Timeline :=
  let (tl, t) := tl.beginTask s limit t
  let (t, shown) := advanceEvents limit t t.pending
  { tl with
    tasks := tl.tasks ++ [t]
    records := tl.records ++ shown.map fun (time, r) => (t.key, time, r) }

/-- Lets every task run up to a time. -/
def advance (s : Setting) (limit : Nat) (tl : Timeline) : Timeline :=
  tl.tasks.foldl (fun acc t => acc.advanceTask s limit t) { tl with tasks := [] }

def report (time : Nat) (tl : Timeline) (r : Report) : Timeline :=
  let entry := match r with
    | .enter key admitted => (key, time, Record.enter admitted)
    | .exit key => (key, time, .exit)
  { tl with records := tl.records ++ [entry] }

/-- Notices the tasks that ended before a listing. -/
def reap (time : Nat) (tl : Timeline) : Timeline :=
  let done := tl.tasks.filterMap fun t => t.endedAt.map (t.id, ·)
  let (watch, reports) := tl.watch.reap done
  let tl := { tl with watch, tasks := tl.tasks.filter (·.endedAt.isNone) }
  reports.foldl (report time) tl

/-- Takes the listing that is there at a time; tasks without a container any more are stopped. -/
def listed (s : Setting) (time : Nat) (pods : List Pod) (tl : Timeline) : Timeline :=
  let (watch, reports, starts) := tl.watch.listed s.accept time pods
  let kept := tl.tasks.map (Task.stop time watch.followers)
  let started := starts.map fun st =>
    { id := st.id, key := st.key, begins := some (time, st.since), pending := [] }
  reports.foldl (report time) { tl with watch, tasks := kept ++ started }

theorem measure_nextTick {interval due came ready until_ : Nat} (hi : 0 < interval)
    (hc : came ≤ until_) (hr : came ≤ ready) :
    until_ + 1 - max (nextTick interval due came) ready
      + (until_ + 1 - nextTick interval due came) < until_ + 1 - came + (until_ + 1 - due) := by
  have hn : (due < came ∧ nextTick interval due came = came + interval) ∨
      nextTick interval due came = due + interval := by
    unfold nextTick
    split <;> omega
  generalize nextTick interval due came = n at hn ⊢
  rcases Nat.le_total n ready with h | h
  · rw [Nat.max_eq_right h]; omega
  · rw [Nat.max_eq_left h]; omega

/-- Runs a watch up to a time, from the listing of a given number, due and beginning then.  There
is a result when the watch ends by itself. -/
def run (s : Setting) (until_ : Nat) (number : Nat) (due came : Nat) (tl : Timeline) :
    Option (Except ClusterError Unit) × Timeline :=
  if until_ < came ∨ s.interval = 0 then (none, tl.advance s until_)
  else
    let tl := (tl.advance s came).reap came
    let tl := { tl with polls := tl.polls ++ [came] }
    let listing := s.listing number
    let ready := came + listing.delay
    if until_ < ready then (none, tl.advance s until_)
    else
      let tl := tl.advance s ready
      let due' := nextTick s.interval due came
      match listing.answer with
      | .error e =>
        match tl.watch.listingFailed e with
        | .error e => (some (.error e), tl)
        | .ok watch => run s until_ (number + 1) due' (max due' ready) { tl with watch }
      | .ok pods => run s until_ (number + 1) due' (max due' ready) (tl.listed s ready pods)
termination_by (until_ + 1 - came) + (until_ + 1 - due)
decreasing_by all_goals exact measure_nextTick (by omega) (by omega) (by omega)

end Timeline

end Rollout.Kubernetes
