/-
How a log session ends, under every schedule of discovery and the writer.

What discovery has queued so far depends on its steps alone (`Tail.queued`), and however the turns
fell, the sinks are as if the part of it that is off the queue had been written in one go
(`Outputs.Took`).

* `Underway` says so of a session in which no write has failed, `Broken` what a failure leaves
  behind; `Race.run_sound` has one or the other after any number of turns;
* `Race.ends_of_turns`: once discovery has returned or let go of its callbacks, the writer ends the
  session alone;
* `Race.run_settles` puts these together;
* `Session.run_raced`: the session that lets the writer empty the queue whenever discovery waits is
  one of these races.
-/
import Rollout.Logs.Race
import Rollout.Proofs.Logs.Delivery

namespace Rollout.Logs

/-! ### Sinks -/

/-- Bytes written one after another are as if written at once. -/
theorem Sink.write_append {s : Sink} {a : Bytes} (h : (s.write a).1 = .ok ()) (b : Bytes) :
    s.write (a ++ b) = (s.write a).2.write b := by
  cases hroom : s.room with
  | none => simp [write, hroom]
  | some room =>
    have ha : a.length ≤ room := by simpa [write, hroom] using h
    have hle : a.length + b.length ≤ room ↔ b.length ≤ room - a.length := by omega
    simp only [write, hroom, List.take_append, List.length_append, hle, List.append_assoc,
      Nat.sub_sub]

theorem Sink.content_of_write {s s' : Sink} {bs : Bytes} (h : s.write bs = (.ok (), s')) :
    s'.content = s.content ++ bs := by
  obtain ⟨part, left, rfl, hcontent, hall⟩ := s.exists_of_write bs
  rw [h] at hcontent hall
  rw [hall rfl, List.append_nil]
  exact hcontent

theorem Sink.room_of_write_error {s s' : Sink} {bs : Bytes} {e : Host.Error}
    (h : s.write bs = (.error e, s')) :
    ∃ room, s.room = some room ∧ room < bs.length ∧ s'.content = s.content ++ bs.take room := by
  cases hroom : s.room with
  | none => simp [write, hroom] at h
  | some room =>
    rw [write, hroom, Prod.mk.injEq] at h
    obtain ⟨hresult, rfl⟩ := h
    refine ⟨room, rfl, ?_, rfl⟩
    by_contra hle
    simp [Nat.le_of_not_lt hle] at hresult

/-- Where the messages of a channel go. -/
def Outputs.sink (o : Outputs) : Channel → Sink
  | .out => o.out
  | .err => o.err

namespace Outputs

variable {o o' o'' : Outputs} {ms : List Message} {m : Message}

theorem write_fst (o : Outputs) (m : Message) :
    (o.write m).1 = ((o.sink m.channel).write m.bytes).1 := by
  cases m <;> rfl

theorem sink_write (o : Outputs) (m : Message) (ch : Channel) :
    (o.write m).2.sink ch =
      if ch = m.channel then ((o.sink ch).write m.bytes).2 else o.sink ch := by
  cases m <;> cases ch <;> rfl

/-- Outputs are what others become when these messages are written to them. -/
def Took (o o' : Outputs) (ms : List Message) : Prop :=
  ∀ ch, (o.sink ch).write (bytesOn ch ms) = (.ok (), o'.sink ch)

/-- These messages, each of them in full, are all that has come to the sinks. -/
def Holds (o o' : Outputs) (ms : List Message) : Prop :=
  ∀ ch, (o'.sink ch).content = (o.sink ch).content ++ bytesOn ch ms

/-- These messages have come to the sinks, and of one more message the part for which there was
room. -/
def Breaks (o o' : Outputs) (before : List Message) (m : Message) : Prop :=
  ∃ part left, m.bytes = part ++ left ∧ left ≠ [] ∧
    (o.sink m.channel).room = some ((bytesOn m.channel before).length + part.length) ∧
    ∀ ch, (o'.sink ch).content =
      (o.sink ch).content ++ bytesOn ch before ++ if ch = m.channel then part else []

theorem took_nil (o : Outputs) : o.Took o [] := by
  intro ch
  show (o.sink ch).write [] = (.ok (), o.sink ch)
  rcases o.sink ch with ⟨content, _ | room⟩ <;> simp [Sink.write]

theorem Took.holds (h : o.Took o' ms) : o.Holds o' ms :=
  fun ch => Sink.content_of_write (h ch)

theorem Took.concat (h : o.Took o' ms) (hw : o'.write m = (.ok (), o'')) :
    o.Took o'' (ms ++ [m]) := by
  intro ch
  have hfst : (o'.write m).1 = .ok () := by rw [hw]
  have hsnd : (o'.write m).2 = o'' := by rw [hw]
  rw [bytesOn_append, Sink.write_append (by rw [h ch]), h ch, bytesOn_singleton, ← hsnd, sink_write]
  rw [write_fst] at hfst
  split
  · next hch =>
    subst hch
    exact Prod.ext hfst rfl
  · -- nothing is written to the other sink
    simpa [bytesOn] using took_nil o' ch

theorem Took.breaks (h : o.Took o' ms) {e : Host.Error} (hw : o'.write m = (.error e, o'')) :
    o.Breaks o'' ms m := by
  have hfst : (o'.write m).1 = .error e := by rw [hw]
  have hsnd : (o'.write m).2 = o'' := by rw [hw]
  rw [write_fst] at hfst
  have hfail : (o.sink m.channel).write (bytesOn m.channel ms ++ m.bytes) =
      (.error e, o''.sink m.channel) := by
    rw [Sink.write_append (by rw [h]), h, ← hsnd, sink_write, if_pos rfl]
    exact Prod.ext hfst rfl
  obtain ⟨room, hroom, hlt, hcontent⟩ := Sink.room_of_write_error hfail
  have hle : (bytesOn m.channel ms).length ≤ room := by
    have := h m.channel
    by_contra hle
    simp [Sink.write, hroom, hle] at this
  rw [List.length_append] at hlt
  refine ⟨m.bytes.take (room - (bytesOn m.channel ms).length),
    m.bytes.drop (room - (bytesOn m.channel ms).length), (List.take_append_drop ..).symm, ?_, ?_,
    fun ch => ?_⟩
  · rw [Ne, List.drop_eq_nil_iff]
    omega
  · rw [hroom, List.length_take]
    congr 1
    omega
  · by_cases hch : ch = m.channel
    · subst hch
      rw [hcontent, List.take_append, List.take_of_length_le hle, if_pos rfl, List.append_assoc]
    · rw [if_neg hch, List.append_nil, ← h.holds ch, ← hsnd, sink_write, if_neg hch]

end Outputs

/-! ### What discovery queues -/

/-- The messages that discovery queues in these steps: those of its calls, as long as it holds its
callbacks. -/
def Tail.queued (t : Tail) : List Step → List Message
  | [] => []
  | .report c :: rest => t.messages c ++ t.queued rest
  | .wait _ :: rest => t.queued rest
  | .release :: _ => []

variable {t : Tail} {o : Outputs} {outcome : Outcome} {steps ahead done more : List Step}
  {s : Session} {written : List Message} {x : Race}

theorem Tail.queued_append_of_released (h : .release ∈ done) :
    t.queued (done ++ more) = t.queued done := by
  induction done with
  | nil => exact absurd h List.not_mem_nil
  | cons step done ih =>
    cases step with
    | release => rfl
    | report c =>
      have hrest := ih (by simpa using h)
      rw [List.cons_append, queued, queued, hrest]
    | wait ms =>
      have hrest := ih (by simpa using h)
      rw [List.cons_append, queued, queued, hrest]

theorem Tail.queued_append_of_holding (h : .release ∉ done) :
    t.queued (done ++ more) = t.queued done ++ t.queued more := by
  induction done with
  | nil => rfl
  | cons step done ih =>
    rw [List.mem_cons, not_or] at h
    obtain ⟨hstep, hdone⟩ := h
    have hrest := ih hdone
    cases step with
    | release => exact absurd rfl hstep
    | report c => rw [List.cons_append, queued, queued, hrest, List.append_assoc]
    | wait ms => rw [List.cons_append, queued, queued, hrest]

/-! ### Turns -/

/-- No write has failed so far: of what discovery has queued in the steps that are done, the sinks
took what is off the queue. -/
structure Underway (t : Tail) (o : Outputs) (steps : List Step) (s : Session)
    (ahead done : List Step) (written : List Message) : Prop where
  tail : s.tail = t
  steps : steps = done ++ ahead
  holding : s.holding = true ↔ .release ∉ done
  queue : t.queued done = written ++ s.queue
  outputs : o.Took s.outputs written

namespace Underway

theorem report {c : Callback} (h : Underway t o steps s (.report c :: ahead) done written) :
    Underway t o steps (s.report c) ahead (done ++ [.report c]) written := by
  have hsteps : steps = done ++ [.report c] ++ ahead := by rw [h.steps, List.append_assoc]; rfl
  have hmem : .release ∈ done ++ [.report c] ↔ .release ∈ done := by simp
  unfold Session.report
  by_cases hholding : s.holding = true
  · rw [if_pos hholding]
    refine ⟨h.tail, hsteps, by simpa [hmem] using h.holding, ?_, h.outputs⟩
    rw [Tail.queued_append_of_holding (h.holding.mp hholding), h.queue, List.append_assoc, h.tail]
    simp [Tail.queued]
  · rw [if_neg hholding]
    refine ⟨h.tail, hsteps, by simpa [hmem] using h.holding, ?_, h.outputs⟩
    rw [Tail.queued_append_of_released (by simpa [h.holding] using hholding), h.queue]

theorem release (h : Underway t o steps s (.release :: ahead) done written) :
    Underway t o steps { s with holding := false } ahead (done ++ [.release]) written := by
  refine ⟨h.tail, by rw [h.steps, List.append_assoc]; rfl, by simp, ?_, h.outputs⟩
  by_cases hmem : .release ∈ done
  · rw [Tail.queued_append_of_released hmem, h.queue]
  · rw [Tail.queued_append_of_holding hmem, h.queue]
    simp [Tail.queued]

theorem wait {ms : Nat} (h : Underway t o steps s (.wait ms :: ahead) done written) :
    Underway t o steps { s with now := s.now + ms } ahead (done ++ [.wait ms]) written := by
  refine ⟨h.tail, by rw [h.steps, List.append_assoc]; rfl, by simpa using h.holding, ?_, h.outputs⟩
  by_cases hmem : .release ∈ done
  · rw [Tail.queued_append_of_released hmem, h.queue]
  · rw [Tail.queued_append_of_holding hmem, h.queue]
    simp [Tail.queued]

/-- A turn of discovery writes nothing, and ends at a wait or with the result of discovery. -/
theorem advance (outcome : Outcome) (h : Underway t o steps s ahead done written) :
    ∃ done', Underway t o steps (s.advance outcome ahead).session (s.advance outcome ahead).ahead
        done' written ∧
      (s.advance outcome ahead).failure = none ∧ (s.advance outcome ahead).result = none ∧
      ∀ r, (s.advance outcome ahead).returned = some r →
        (s.advance outcome ahead).ahead = [] ∧ outcome = .returns r := by
  induction ahead generalizing s done with
  | nil =>
    refine ⟨done, h, rfl, rfl, fun r hr => ⟨rfl, ?_⟩⟩
    cases outcome with
    | returns r' => exact congrArg Outcome.returns (Option.some.inj hr)
    | hangs => exact absurd hr nofun
  | cons step ahead ih =>
    cases step with
    | report c => exact ih h.report
    | release => exact ih h.release
    | wait ms => exact ⟨_, h.wait, rfl, rfl, nofun⟩

end Underway

/-- What is true of a race in which no write has failed. -/
structure Race.Flawless (t : Tail) (o : Outputs) (steps : List Step) (outcome : Outcome)
    (x : Race) : Prop where
  underway : ∃ done written, Underway t o steps x.session x.ahead done written
  failure : x.failure = none
  returned : ∀ r, x.returned = some r → x.ahead = [] ∧ outcome = .returns r
  result : ∀ r, x.result = some r → x.session.queue = [] ∧ x.due? = some r

/-- What a write that fails leaves behind. -/
structure Race.Broken (t : Tail) (o : Outputs) (steps : List Step) (e : Host.Error) (x : Race) :
    Prop where
  failure : x.failure = some e
  result : x.result = some (.error (.sink e))
  outputs : ∃ done before m after, steps = done ++ x.ahead ∧
    t.queued done = before ++ m :: after ∧ o.Breaks x.session.outputs before m

namespace Race

theorem flawless_ofSteps (t : Tail) (o : Outputs) (steps : List Step) (outcome : Outcome) :
    (ofSteps t o steps).Flawless t o steps outcome where
  underway := ⟨[], [], rfl, rfl, by simp [ofSteps], rfl, Outputs.took_nil o⟩
  failure := rfl
  returned := nofun
  result := nofun

theorem writeOne_nil (h : x.session.queue = []) :
    x.writeOne = { x with result := x.due? } := by
  rw [writeOne, h]

theorem writeOne_ok {m : Message} {queue : List Message} {outputs : Outputs}
    (h : x.session.queue = m :: queue) (hw : x.session.outputs.write m = (.ok (), outputs)) :
    x.writeOne = { x with session := { x.session with queue, outputs } } := by
  rw [writeOne, h]
  dsimp only
  rw [hw]

theorem writeOne_error {m : Message} {queue : List Message} {outputs : Outputs} {e : Host.Error}
    (h : x.session.queue = m :: queue) (hw : x.session.outputs.write m = (.error e, outputs)) :
    x.writeOne = { x with session := { x.session with queue, outputs }, failure := some e,
                          result := some (.error (.sink e)) } := by
  rw [writeOne, h]
  dsimp only
  rw [hw]

theorem Flawless.writeOne (h : x.Flawless t o steps outcome) (hresult : x.result = none) :
    x.writeOne.Flawless t o steps outcome ∨ ∃ e, x.writeOne.Broken t o steps e := by
  obtain ⟨done, written, hu⟩ := h.underway
  rcases hqueue : x.session.queue with _ | ⟨m, queue⟩
  · rw [writeOne_nil hqueue]
    exact .inl ⟨⟨done, written, hu⟩, h.failure, h.returned, fun r hr => ⟨hqueue, hr⟩⟩
  · have hqueued := hu.queue
    rw [hqueue] at hqueued
    rcases hwrite : x.session.outputs.write m with ⟨_ | ⟨⟩, outputs⟩
    · rw [writeOne_error hqueue hwrite]
      exact .inr ⟨_, rfl, rfl, done, written, m, queue, hu.steps, hqueued,
        hu.outputs.breaks hwrite⟩
    · rw [writeOne_ok hqueue hwrite]
      refine .inl ⟨⟨done, written ++ [m], hu.tail, hu.steps, hu.holding, ?_,
        hu.outputs.concat hwrite⟩, h.failure, h.returned, fun r hr => ?_⟩
      · rw [hqueued, List.append_assoc]
        rfl
      · exact absurd (hresult.symm.trans hr) nofun

theorem Flawless.turn (h : x.Flawless t o steps outcome) (w : Turn) :
    (x.turn outcome w).Flawless t o steps outcome ∨ ∃ e, (x.turn outcome w).Broken t o steps e := by
  cases w with
  | discovery =>
    rw [Race.turn]
    split
    · obtain ⟨done, written, hu⟩ := h.underway
      obtain ⟨done', hu', hfailure, hresult, hreturned⟩ := hu.advance outcome
      refine .inl ⟨⟨done', written, hu'⟩, hfailure, hreturned, fun r hr => ?_⟩
      exact absurd (hresult.symm.trans hr) nofun
    · exact .inl h
  | writer =>
    rw [Race.turn]
    split
    · next hresult => exact h.writeOne hresult
    · exact .inl h

theorem turn_of_result {r : Except Plan.Error Unit} (h : x.result = some r) (w : Turn) :
    x.turn outcome w = x := by
  cases w <;> simp [turn, h]

theorem run_of_result {r : Except Plan.Error Unit} (h : x.result = some r) (turns : List Turn) :
    x.run outcome turns = x := by
  induction turns with
  | nil => rfl
  | cons w turns ih => rw [run, List.foldl_cons, turn_of_result h, ← run, ih]

/-- After any number of turns no write has failed, or one has and nothing happened after it. -/
theorem Flawless.run (h : x.Flawless t o steps outcome) (turns : List Turn) :
    (x.run outcome turns).Flawless t o steps outcome ∨
      ∃ e, (x.run outcome turns).Broken t o steps e := by
  induction turns generalizing x with
  | nil => exact .inl h
  | cons w turns ih =>
    rw [Race.run, List.foldl_cons]
    rcases h.turn w with h | ⟨e, h⟩
    · exact ih h
    · rw [← Race.run, run_of_result h.result]
      exact .inr ⟨e, h⟩

/-! ### The writer alone -/

theorem run_append (x : Race) (turns more : List Turn) :
    x.run outcome (turns ++ more) = (x.run outcome turns).run outcome more :=
  List.foldl_append

theorem run_discovery (hresult : x.result = none) (hreturned : x.returned = none)
    (turns : List Turn) :
    x.run outcome (.discovery :: turns) =
      (x.session.advance outcome x.ahead).run outcome turns := by
  rw [run, List.foldl_cons, turn, hresult, hreturned, ← run]

/-- The writer goes on until the queue is empty and the session ends, if that is due, or until a
write fails. -/
def writeAll (x : Race) : Race :=
  match x.session.outputs.drain x.session.queue with
  | (.ok (), queue, outputs) =>
    { x with session := { x.session with queue, outputs }, result := x.due? }
  | (.error e, queue, outputs) =>
    { x with session := { x.session with queue, outputs }, failure := some e,
             result := some (.error (.sink e)) }

/-- Emptying the queue takes a turn for each message and one to find that there is none. -/
theorem run_writer (outcome : Outcome) (h : x.result = none) :
    x.run outcome (.replicate (x.session.queue.length + 1) .writer) = x.writeAll := by
  have hturn (x : Race) (h : x.result = none) : x.turn outcome .writer = x.writeOne := by
    simp [turn, h]
  induction hqueue : x.session.queue generalizing x with
  | nil =>
    show x.turn outcome .writer = _
    rw [hturn x h, writeOne_nil hqueue, writeAll, hqueue]
    rw [Outputs.drain, ← hqueue]
  | cons m queue ih =>
    rw [List.length_cons, List.replicate_succ, run, List.foldl_cons, hturn x h, ← run, writeAll,
      hqueue, Outputs.drain]
    rcases hwrite : x.session.outputs.write m with ⟨_ | ⟨⟩, outputs⟩
    · rw [writeOne_error hqueue hwrite]
      exact run_of_result rfl _
    · rw [writeOne_ok hqueue hwrite]
      exact ih h rfl

theorem returned_writeAll (x : Race) : x.writeAll.returned = x.returned := by
  unfold writeAll
  split <;> rfl

theorem result_writeAll (h : x.due? ≠ none) : x.writeAll.result ≠ none := by
  unfold writeAll
  split
  · exact h
  · nofun

/-- Once discovery has returned or let go of its callbacks, the writer ends the session alone. -/
theorem ends_of_turns (hdue : x.returned ≠ none ∨ x.session.holding = false) {n : Nat}
    (hn : x.session.queue.length < n) :
    (x.run outcome (.replicate n .writer)).result ≠ none ∧
      (x.run outcome (.replicate n .writer)).returned = x.returned := by
  cases hresult : x.result with
  | some r =>
    rw [run_of_result hresult]
    exact ⟨by rw [hresult]; nofun, rfl⟩
  | none =>
    obtain ⟨k, rfl⟩ : ∃ k, n = x.session.queue.length + 1 + k := ⟨_, (Nat.add_sub_of_le hn).symm⟩
    have hends : x.writeAll.result ≠ none := by
      apply result_writeAll
      unfold due?
      rcases hdue with hreturned | hholding
      · split
        · nofun
        · next hnone => exact absurd hnone hreturned
      · split
        · nofun
        · simp [hholding]
    obtain ⟨r, hr⟩ := Option.ne_none_iff_exists'.mp hends
    rw [List.replicate_add, run_append, run_writer outcome hresult, run_of_result hr]
    exact ⟨hends, returned_writeAll x⟩

/-! ### Ends of sessions -/

/-- **A session ends as discovery does, and all that was queued is written, unless a write fails.**
Whatever the order of the turns: if no write has failed and discovery has returned, the session ends
with the result of discovery, and the sinks hold the messages of all its steps; if it has not, the
session ends only when discovery has let go of its callbacks, with success, and the sinks hold the
messages of the steps until then.  A write that fails ends the session with its failure, whatever
discovery has returned; the sinks hold the messages before it and the part of it that fitted.  And
once discovery has returned, or waits without its callbacks, the session does end, with one turn of
the writer more than there are messages on the queue. -/
theorem run_settles (t : Tail) (o : Outputs) (steps : List Step) (outcome : Outcome)
    (turns : List Turn) (hx : (ofSteps t o steps).run outcome turns = x) :
    (∀ r, x.result = some r → x.failure = none →
      (∀ res, x.returned = some res →
        outcome = .returns res ∧ r = res.mapError .cluster ∧
          o.Holds x.session.outputs (t.queued steps)) ∧
      (x.returned = none →
        r = .ok () ∧ ∃ done, steps = done ++ x.ahead ∧ .release ∈ done ∧
          o.Holds x.session.outputs (t.queued done))) ∧
    (∀ e, x.failure = some e →
      x.result = some (.error (.sink e)) ∧ ∃ done before m after, steps = done ++ x.ahead ∧
        t.queued done = before ++ m :: after ∧ o.Breaks x.session.outputs before m) ∧
    (x.returned ≠ none ∨ x.session.holding = false → ∀ n, x.session.queue.length < n →
      (x.run outcome (.replicate n .writer)).result ≠ none ∧
        (x.run outcome (.replicate n .writer)).returned = x.returned) := by
  refine ⟨fun r hr hfailure => ?_, fun e he => ?_, fun hdue n hn => ends_of_turns hdue hn⟩
  all_goals
    have hsound := (flawless_ofSteps t o steps outcome).run turns
    rw [hx] at hsound
  · obtain h | ⟨e, h⟩ := hsound
    · obtain ⟨done, written, hu⟩ := h.underway
      obtain ⟨hempty, hdue⟩ := h.result r hr
      -- the queue is empty, so all that was queued has been written
      have hqueued : t.queued done = written := by rw [hu.queue, hempty, List.append_nil]
      have hholds := hu.outputs.holds
      rw [← hqueued] at hholds
      refine ⟨fun res hres => ?_, fun hnone => ?_⟩
      · obtain ⟨hahead, houtcome⟩ := h.returned res hres
        have hdone : steps = done := by rw [hu.steps, hahead, List.append_nil]
        refine ⟨houtcome, ?_, by rwa [hdone]⟩
        rw [due?, hres] at hdue
        exact (Option.some.inj hdue).symm
      · rw [due?, hnone] at hdue
        cases hholding : x.session.holding with
        | true => simp [hholding] at hdue
        | false =>
          refine ⟨by simpa [hholding, eq_comm] using hdue, done, hu.steps, ?_, hholds⟩
          by_contra hmem
          exact absurd (hu.holding.mpr hmem) (by simp [hholding])
    · exact absurd (hfailure.symm.trans h.failure) nofun
  · obtain h | ⟨e', h⟩ := hsound
    · exact absurd (h.failure.symm.trans he) nofun
    · obtain rfl : e' = e := Option.some.inj (h.failure.symm.trans he)
      exact ⟨h.result, h.outputs⟩

/-- A container appears, and a line of it arrives ten milliseconds later. -/
def oneLine : List Step :=
  [.report (.enter ⟨"web-0", "app"⟩), .wait 10, .report (.event ⟨"web-0", "app"⟩ "ready\r\n")]

def forbidden : Kubernetes.ClusterError := .api 403 "Forbidden" "pods is forbidden"

/-- Discovery fails behind a line: the session fails as discovery does and the line is written.
With room for five bytes of the line, the session fails as the sink does and these are written. -/
theorem run_settles_forbidden :
    ∃ turns x y, (ofSteps {} {} oneLine).run (.returns (.error forbidden)) turns = x ∧
      x.result = some (.error (.cluster forbidden)) ∧
      x.session.outputs.out.content = Utf8.encode "web-0:app ready\n" ∧
      (ofSteps {} { out := { room := some 5 } } oneLine).run (.returns (.error forbidden)) turns =
        y ∧
      y.result = some (.error (.sink sinkFull)) ∧
      y.session.outputs.out.content = Utf8.encode "web-0" := by
  let turns : List Turn := [.writer, .discovery, .discovery, .writer, .writer, .writer]
  have hresult : ((ofSteps {} {} oneLine).run (.returns (.error forbidden)) turns).result =
      some (.error (.cluster forbidden)) := by cbv
  obtain ⟨-, -, hholds⟩ := ((run_settles {} {} oneLine (.returns (.error forbidden)) turns rfl).1 _
    hresult (by cbv)).1 (.error forbidden) (by cbv)
  have hwritten := (hholds .out).trans (b := Utf8.encode "web-0:app ready\n") (by cbv)
  have hfails := (run_settles {} { out := { room := some 5 } } oneLine
    (.returns (.error forbidden)) turns rfl).2.1 sinkFull (by cbv)
  exact ⟨turns, _, _, rfl, hresult, hwritten, rfl, hfails.1, by cbv⟩

end Race

/-- From where discovery waits first, the writer empties the queue and the session goes on. -/
theorem Session.run_advance (outcome : Outcome) (until_ : Nat) (s : Session) (steps : List Step) :
    ∃ turns now, ((s.advance outcome steps).run outcome turns).result =
        (s.run outcome until_ steps).1 ∧
      ((s.advance outcome steps).run outcome turns).session =
        { (s.run outcome until_ steps).2 with now } := by
  have hwriter (x : Race) (hresult : x.result = none) : ∃ n,
      x.run outcome (.replicate n .writer) = x.writeAll := ⟨_, Race.run_writer outcome hresult⟩
  induction steps generalizing s with
  | nil =>
    obtain ⟨n, hrun⟩ := hwriter (s.advance outcome []) rfl
    refine ⟨.replicate n .writer, s.now, ?_⟩
    rw [hrun, Race.writeAll, Session.run, Session.drain]
    simp only [Session.advance]
    rcases s.outputs.drain s.queue with ⟨_ | ⟨⟩, queue, outputs⟩
    · exact ⟨rfl, rfl⟩
    · cases outcome with
      | returns r => exact ⟨rfl, rfl⟩
      | hangs => exact ⟨rfl, rfl⟩
  | cons step rest ih =>
    cases step with
    | report c => exact ih (s.report c)
    | release => exact ih { s with holding := false }
    | wait ms =>
      obtain ⟨tail, o, queue, holding, time, admitted⟩ := s
      obtain ⟨n, hrun⟩ :=
        hwriter (advance outcome ⟨tail, o, queue, holding, time, admitted⟩ (.wait ms :: rest)) rfl
      simp only [Race.writeAll, advance, Race.due?] at hrun ⊢
      simp only [Session.run, drain]
      rcases hdrain : o.drain queue with ⟨_ | ⟨⟩, left, written⟩
      · rw [hdrain] at hrun
        exact ⟨.replicate n .writer, time + ms, by rw [hrun]; rfl, by rw [hrun]; rfl⟩
      · rw [hdrain] at hrun
        cases holding with
        | false => exact ⟨.replicate n .writer, time + ms, by rw [hrun]; rfl, by rw [hrun]; rfl⟩
        | true =>
          by_cases hlate : until_ < time + ms
          · refine ⟨.replicate n .writer, time + ms, ?_⟩
            simp [hrun, hlate, Except.mapError]
          · -- discovery goes on from where the writer has left the session
            obtain ⟨turns, now, hresult, hsession⟩ :=
              ih ⟨tail, written, left, true, time + ms, admitted⟩
            refine ⟨.replicate n .writer ++ .discovery :: turns, now, ?_⟩
            rw [Race.run_append, hrun, Race.run_discovery rfl rfl]
            simpa [hlate, Except.mapError] using And.intro hresult hsession

/-- **Sessions are races.**  A session ends as the race does in which the writer empties the queue
whenever discovery waits; only the time may differ at which discovery would have gone on. -/
theorem Session.run_raced (outcome : Outcome) (until_ : Nat) (s : Session) (steps : List Step) :
    ∃ turns now, (Race.run outcome { session := s, ahead := steps } turns).result =
        (s.run outcome until_ steps).1 ∧
      (Race.run outcome { session := s, ahead := steps } turns).session =
        { (s.run outcome until_ steps).2 with now } := by
  obtain ⟨turns, now, hends⟩ := s.run_advance outcome until_ steps
  exact ⟨.discovery :: turns, now, by rwa [Race.run_discovery rfl rfl]⟩

end Rollout.Logs
