/-
Sinks: where output goes, up to a limit.

A write stores what fits; when something is left over it fails.
-/
import Rollout.Host.Error
import Rollout.Text.Utf8

namespace Rollout.Logs

structure Sink where
  content : Bytes := []
  /-- How many more bytes there is room for; no limit without a number. -/
  room : Option Nat := none
  deriving DecidableEq, Repr, Inhabited

/-- The failure of a sink without room. -/
def sinkFull : Host.Error := .other "sink full"

/-- Writes bytes as far as there is room. -/
def Sink.write (s : Sink) (bs : Bytes) : Except Host.Error Unit × Sink :=
  match s.room with
  | none => (.ok (), { s with content := s.content ++ bs })
  | some room =>
    (if bs.length ≤ room then .ok () else .error sinkFull,
      ⟨s.content ++ bs.take room, some (room - bs.length)⟩)

end Rollout.Logs
