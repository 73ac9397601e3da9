/-
A tail and its writer at work, under every schedule.

Tasks that hold the tail call back on it whenever they like, and one writer takes the messages off
the queue.  Nothing but the order of each one's own steps is fixed.

* `System.Step` says which steps there are, when one may be taken and what is seen of it;
* `System.Run` says what is seen of several steps, one after another.

Design notes: a callback puts at most one message on the queue, so a call is one step.  To write a
message is not: a sink may take it in parts, others may call back meanwhile, and what was written
of it stays when the sink fails.
-/
import Rollout.Logs.Tail

namespace Rollout.Logs

/-- Where a message goes. -/
inductive Channel where
  | out
  | err
  deriving DecidableEq, Repr

namespace Message

def channel : Message → Channel
  | line _ => .out
  | notice _ => .err

def bytes : Message → Bytes
  | line text | notice text => Utf8.encode text

end Message

/-- How long the writer goes on. -/
inductive Mode where
  /-- Until the queue is empty and nobody holds the tail. -/
  | run
  /-- Until the queue is empty. -/
  | drain
  deriving DecidableEq, Repr

/-- What the writer is doing. -/
inductive Phase where
  | idle
  /-- It is between two messages. -/
  | waiting (mode : Mode)
  /-- It has taken a message, and this is left to write of it. -/
  | writing (mode : Mode) (m : Message) (left : Bytes)
  deriving DecidableEq, Repr

/-- One thing that is seen. -/
inductive Seen where
  /-- A task calls back. -/
  | call (task : Nat) (c : Callback)
  /-- The writer begins. -/
  | begins (mode : Mode)
  /-- The writer takes a message off the queue. -/
  | takes (m : Message)
  /-- A write fails. -/
  | fails (e : Host.Error)
  /-- The writer is done. -/
  | returns (mode : Mode) (r : Except Host.Error Unit)

abbrev Trace := List Seen

structure System where
  queue : List Message := []
  /-- The tasks that hold the tail, each as often as it does. -/
  holders : List Nat
  phase : Phase := .idle
  /-- What the sinks hold. -/
  sinks : Channel → Bytes := fun _ => []

namespace System

/-- Adds to what a sink holds. -/
def put (s : System) (ch : Channel) (part : Bytes) : System :=
  { s with sinks := fun c => if c = ch then s.sinks c ++ part else s.sinks c }

/-- What is left to write to a sink of the message that was taken last. -/
def left (s : System) (ch : Channel) : Bytes :=
  match s.phase with
  | .writing _ m left => if ch = m.channel then left else []
  | .idle | .waiting _ => []

/-- One step at a time, and what is seen of it. -/
inductive Step (t : Tail) (s : System) : List Seen → System → Prop where
  | calls (task : Nat) (c : Callback) (h : task ∈ s.holders) :
      Step t s [.call task c] { s with queue := s.queue ++ t.messages c }
  /-- A task that holds the tail gives it to another one. -/
  | shares (task other : Nat) (h : task ∈ s.holders) :
      Step t s [] { s with holders := other :: s.holders }
  | drops (task : Nat) (h : task ∈ s.holders) :
      Step t s [] { s with holders := s.holders.erase task }
  | begins (mode : Mode) (h : s.phase = .idle) :
      Step t s [.begins mode] { s with phase := .waiting mode }
  | takes (mode : Mode) (m : Message) (rest : List Message) (h : s.phase = .waiting mode)
      (hq : s.queue = m :: rest) :
      Step t s [.takes m] { s with queue := rest, phase := .writing mode m m.bytes }
  /-- A sink takes a part of a message. -/
  | puts (mode : Mode) (m : Message) (part left : Bytes)
      (h : s.phase = .writing mode m (part ++ left)) :
      Step t s [] { s.put m.channel part with phase := .writing mode m left }
  /-- A sink has all of a message. -/
  | completes (mode : Mode) (m : Message) (h : s.phase = .writing mode m []) :
      Step t s [] { s with phase := .waiting mode }
  | fails (mode : Mode) (m : Message) (left : Bytes) (e : Host.Error)
      (h : s.phase = .writing mode m left) :
      Step t s [.fails e, .returns mode (.error e)] { s with phase := .idle }
  | finishes (mode : Mode) (h : s.phase = .waiting mode) (hq : s.queue = [])
      (hh : mode = .run → s.holders = []) :
      Step t s [.returns mode (.ok ())] { s with phase := .idle }
  /-- Whoever started the writer lets go of it while it waits for messages. -/
  | leaves (h : s.phase = .waiting .run) : Step t s [] { s with phase := .idle }

/-- What is seen on the way from one state to another. -/
inductive Run (t : Tail) (s : System) : Trace → System → Prop where
  | start : Run t s [] s
  | step {trace : Trace} {s' s'' : System} {seen : List Seen} (hr : Run t s trace s')
      (hs : s'.Step t seen s'') : Run t s (trace ++ seen) s''

/-- A new tail, held by one task, and its writer. -/
def ofHolder (task : Nat) : System := { holders := [task] }

end System

end Rollout.Logs
