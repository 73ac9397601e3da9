/-
A log session is one of the runs of its tail.

The session lets discovery go on until it waits, and then empties the queue.  Under the schedule
that does just this the tasks and the writer take the same steps, so what is true of all runs is
true of every session.

* `System.Run.of_write` and `System.Run.of_drain` replay the writing of a message and of the queue;
* `Session.run_replayed` replays a whole session.
-/
import Rollout.Logs.Session
import Rollout.Logs.System
import Rollout.Proofs.Except

namespace Rollout.Logs

/-- A write puts a part of the bytes behind the content, all of them when it succeeds. -/
theorem Sink.exists_of_write (sink : Sink) (bs : Bytes) :
    ∃ part left, bs = part ++ left ∧ (sink.write bs).2.content = sink.content ++ part ∧
      ((sink.write bs).1 = .ok () → left = []) := by
  cases hroom : sink.room with
  | none => exact ⟨bs, [], (List.append_nil bs).symm, by simp [write, hroom], fun _ => rfl⟩
  | some room =>
    refine ⟨bs.take room, bs.drop room, (List.take_append_drop room bs).symm, ?_, fun h => ?_⟩
    · simp [write, hroom]
    · simpa [write, hroom] using h

namespace System

variable {t : Tail} {s s' s'' : System} {trace later : Trace} {seen : List Seen} {mode : Mode}
  {o : Outputs}

theorem Run.one (h : s.Step t seen s') : Run t s seen s' := by
  simpa using Run.start.step h

theorem Run.trans (h : Run t s trace s') (h' : Run t s' later s'') :
    Run t s (trace ++ later) s'' := by
  induction h' with
  | start => rwa [List.append_nil]
  | step _ hs ih =>
    rw [← List.append_assoc]
    exact ih.step hs

/-- The sinks hold what outputs hold. -/
def Shows (s : System) (o : Outputs) : Prop :=
  s.sinks .out = o.out.content ∧ s.sinks .err = o.err.content

theorem Shows.exists_of_write (h : s.Shows o) (m : Message) :
    ∃ part left, m.bytes = part ++ left ∧ (s.put m.channel part).Shows (o.write m).2 ∧
      ((o.write m).1 = .ok () → left = []) := by
  obtain ⟨hout, herr⟩ := h
  cases m with
  | line text =>
    obtain ⟨part, left, hbytes, hcontent, hall⟩ := o.out.exists_of_write (Utf8.encode text)
    refine ⟨part, left, hbytes, ⟨?_, ?_⟩, hall⟩
    · simp [put, Message.channel, Outputs.write, hcontent, hout]
    · simp [put, Message.channel, Outputs.write, herr]
  | notice text =>
    obtain ⟨part, left, hbytes, hcontent, hall⟩ := o.err.exists_of_write (Utf8.encode text)
    refine ⟨part, left, hbytes, ⟨?_, ?_⟩, hall⟩
    · simp [put, Message.channel, Outputs.write, hout]
    · simp [put, Message.channel, Outputs.write, hcontent, herr]

/-- Writing one message: the writer waits for the next one, or the write has failed. -/
theorem Run.of_write {m : Message} {rest : List Message} (hphase : s.phase = .waiting mode)
    (hqueue : s.queue = m :: rest) (ho : s.Shows o) :
    ∃ trace s', Run t s trace s' ∧ s'.queue = rest ∧ s'.holders = s.holders ∧
      s'.Shows (o.write m).2 ∧
      ((o.write m).1 = .ok () → s'.phase = .waiting mode) ∧
      ∀ e, .fails e ∈ trace → (o.write m).1 = .error e := by
  obtain ⟨part, left, hbytes, hshows, hall⟩ := ho.exists_of_write m
  have htakes := Run.one (Step.takes (t := t) mode m rest hphase hqueue)
  rw [hbytes] at htakes
  have hputs := htakes.step (.puts mode m part left rfl)
  cases hresult : (o.write m).1 with
  | ok u =>
    obtain rfl := hall hresult
    exact ⟨_, _, hputs.step (.completes mode m rfl), rfl, rfl, hshows, fun _ => rfl, by simp⟩
  | error e =>
    refine ⟨_, _, hputs.step (.fails mode m left e rfl), rfl, rfl, hshows, nofun, ?_⟩
    simp +contextual

/-- Writing the queue up to the first failure. -/
theorem Run.of_drain (hphase : s.phase = .waiting mode) (ho : s.Shows o) :
    ∃ trace s', Run t s trace s' ∧ s'.queue = (o.drain s.queue).2.1 ∧ s'.holders = s.holders ∧
      s'.Shows (o.drain s.queue).2.2 ∧
      ((o.drain s.queue).1 = .ok () → s'.phase = .waiting mode) ∧
      ∀ e, .fails e ∈ trace → (o.drain s.queue).1 = .error e := by
  induction hqueue : s.queue generalizing s o with
  | nil => exact ⟨[], s, .start, hqueue, rfl, ho, fun _ => hphase, by simp⟩
  | cons m rest ih =>
    obtain ⟨first, s₁, hrun, hrest, hholders, hshows, hwaits, hfails⟩ :=
      Run.of_write (t := t) hphase hqueue ho
    rw [Outputs.drain]
    cases hwrite : o.write m with
    | mk r o' =>
      rw [hwrite] at hshows hwaits hfails
      cases r with
      | error e => exact ⟨first, s₁, hrun, hrest, hholders, hshows, nofun, hfails⟩
      | ok u =>
        obtain ⟨later, s₂, hrun', hqueue', hholders', hshows', hwaits', hfails'⟩ :=
          ih (hwaits rfl) hshows hrest
        refine ⟨first ++ later, s₂, hrun.trans hrun', hqueue', hholders'.trans hholders, hshows',
          hwaits', fun e he => ?_⟩
        rcases List.mem_append.mp he with he | he
        · exact absurd (hfails e he) nofun
        · exact hfails' e he

end System

namespace Session

/-- A session and its tail with a writer at work: discovery, the task 0, holds the tail as long as
it may report. -/
structure Matches (x : Session) (s : System) : Prop where
  queue : s.queue = x.queue
  holders : s.holders = if x.holding then [0] else []
  sinks : s.Shows x.outputs

variable {x : Session} {s : System}

theorem Matches.report (h : x.Matches s) (hphase : s.phase = .waiting .run) (c : Callback) :
    ∃ trace s', System.Run x.tail s trace s' ∧ (x.report c).Matches s' ∧
      s'.phase = .waiting .run ∧ ∀ e, .fails e ∉ trace := by
  by_cases hholding : x.holding = true
  · have hmem : 0 ∈ s.holders := by simp [h.holders, hholding]
    refine ⟨_, _, .one (.calls 0 c hmem), ?_, hphase, by simp⟩
    unfold Session.report
    rw [if_pos hholding]
    exact ⟨congrArg (· ++ _) h.queue, h.holders, h.sinks⟩
  · unfold Session.report
    rw [if_neg hholding]
    exact ⟨[], s, .start, h, hphase, by simp⟩

theorem Matches.release (h : x.Matches s) (hphase : s.phase = .waiting .run) :
    ∃ trace s', System.Run x.tail s trace s' ∧ { x with holding := false }.Matches s' ∧
      s'.phase = .waiting .run ∧ ∀ e, .fails e ∉ trace := by
  by_cases hholding : x.holding = true
  · have hholders : s.holders = [0] := by simp [h.holders, hholding]
    have hmem : 0 ∈ s.holders := by simp [hholders]
    refine ⟨_, _, .one (.drops 0 hmem), ⟨h.queue, ?_, h.sinks⟩, hphase, by simp⟩
    simp [hholders]
  · exact ⟨[], s, .start, ⟨h.queue, by simpa [hholding] using h.holders, h.sinks⟩, hphase, by simp⟩

theorem Matches.drain (h : x.Matches s) (hphase : s.phase = .waiting .run) :
    ∃ trace s', System.Run x.tail s trace s' ∧ x.drain.2.Matches s' ∧
      (x.drain.1 = .ok () → s'.phase = .waiting .run) ∧
      ∀ e, .fails e ∈ trace → x.drain.1 = .error (.sink e) := by
  obtain ⟨trace, s', hrun, hqueue, hholders, hshows, hwaits, hfails⟩ :=
    System.Run.of_drain (t := x.tail) hphase h.sinks
  rw [h.queue] at hqueue hshows hwaits hfails
  refine ⟨trace, s', hrun, ⟨hqueue, hholders.trans h.holders, hshows⟩,
    fun hok => hwaits (mapError_eq_ok_iff.mp hok), fun e he => ?_⟩
  exact congrArg (Except.mapError Plan.Error.sink) (hfails e he)

/-- **Sessions are runs.**  What a session does to the queue and to the sinks is done by a run of
its tail and the writer, and the session ends with the failure of a write if one has failed
there. -/
theorem run_replayed (outcome : Outcome) (until_ : Nat) (steps : List Step) (h : x.Matches s)
    (hphase : s.phase = .waiting .run) :
    ∃ trace s', System.Run x.tail s trace s' ∧ (x.run outcome until_ steps).2.Matches s' ∧
      ∀ e, .fails e ∈ trace → (x.run outcome until_ steps).1 = some (.error (.sink e)) := by
  induction steps generalizing x s with
  | nil =>
    obtain ⟨trace, s', hrun, hmatches, -, hfails⟩ := h.drain hphase
    refine ⟨trace, s', hrun, ?_⟩
    rw [Session.run]
    cases hdrain : x.drain with
    | mk r x' =>
      rw [hdrain] at hmatches hfails
      cases r with
      | error e => exact ⟨hmatches, fun e' he => congrArg some (hfails e' he)⟩
      | ok u =>
        cases outcome with
        | returns r => exact ⟨hmatches, fun e' he => absurd (hfails e' he) nofun⟩
        | hangs => exact ⟨hmatches, fun e' he => absurd (hfails e' he) nofun⟩
  | cons step rest ih =>
    cases step with
    | report c =>
      obtain ⟨first, s₁, hrun, hmatches, hphase', hfails⟩ := h.report hphase c
      have htail : (x.report c).tail = x.tail := by
        unfold Session.report
        split <;> rfl
      obtain ⟨later, s₂, hrun', hmatches', hfails'⟩ := ih hmatches hphase'
      rw [htail] at hrun'
      refine ⟨first ++ later, s₂, hrun.trans hrun', hmatches', fun e he => ?_⟩
      exact hfails' e ((List.mem_append.mp he).resolve_left (hfails e))
    | release =>
      obtain ⟨first, s₁, hrun, hmatches, hphase', hfails⟩ := h.release hphase
      obtain ⟨later, s₂, hrun', hmatches', hfails'⟩ := ih hmatches hphase'
      refine ⟨first ++ later, s₂, hrun.trans hrun', hmatches', fun e he => ?_⟩
      exact hfails' e ((List.mem_append.mp he).resolve_left (hfails e))
    | wait ms =>
      obtain ⟨first, s₁, hrun, hmatches, hwaits, hfails⟩ := h.drain hphase
      have htail : x.drain.2.tail = x.tail := rfl
      rw [Session.run]
      cases hdrain : x.drain with
      | mk r x' =>
        rw [hdrain] at hmatches hwaits hfails htail
        cases r with
        | error e => exact ⟨first, s₁, hrun, hmatches, fun e' he => congrArg some (hfails e' he)⟩
        | ok u =>
          have hnone (e : Host.Error) : .fails e ∉ first := fun he => absurd (hfails e he) nofun
          dsimp only
          split
          · exact ⟨first, s₁, hrun, hmatches, fun e he => absurd he (hnone e)⟩
          split
          · exact ⟨first, s₁, hrun, hmatches, fun e he => absurd he (hnone e)⟩
          · obtain ⟨later, s₂, hrun', hmatches', hfails'⟩ :=
              ih (x := { x' with now := x'.now + ms })
                ⟨hmatches.queue, hmatches.holders, hmatches.sinks⟩ (hwaits rfl)
            rw [htail] at hrun'
            refine ⟨first ++ later, s₂, hrun.trans hrun', hmatches', fun e he => ?_⟩
            exact hfails' e ((List.mem_append.mp he).resolve_left (hnone e))

end Session

end Rollout.Logs
