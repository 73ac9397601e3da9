/-
What the sinks of a tail hold, under every schedule.

* `Accounts` says what is true as long as no write fails: the messages of all calls are those that
  were taken and then those that wait, and each sink holds its part of what was taken, up to what is
  left of the message that is being written;
* `Accounts.step` keeps it over a step, `System.Run.accounts` over a run;
* `System.Step.of_fails` says what a step that fails leaves behind, `System.Run.sinks_eq` that
  nothing is written after it until the writer begins again;
* `System.Run.delivers` puts these together, and speaks of calls instead of messages.
-/
import Rollout.Proofs.Logs.Session

namespace Rollout.Logs

variable {t : Tail} {trace later : Trace} {seen : List Seen} {s s' s'' : System}

/-! ### What is seen -/

namespace Trace

/-- The calls, each with its task, in the order in which they were queued. -/
def calls (trace : Trace) : List (Nat × Callback) :=
  trace.filterMap fun
    | .call task c => some (task, c)
    | _ => none

/-- The messages that the writer took. -/
def taken (trace : Trace) : List Message :=
  trace.filterMap fun
    | .takes m => some m
    | _ => none

/-- No write has failed. -/
def Succeeds (trace : Trace) : Prop := ∀ e, .fails e ∉ trace

theorem calls_append (trace later : Trace) :
    calls (trace ++ later) = calls trace ++ calls later := List.filterMap_append

theorem taken_append (trace later : Trace) :
    taken (trace ++ later) = taken trace ++ taken later := List.filterMap_append

theorem succeeds_append_iff :
    Succeeds (trace ++ later) ↔ Succeeds trace ∧ Succeeds later := by
  simp only [Succeeds, List.mem_append, not_or, forall_and]

end Trace

/-! ### Messages -/

/-- What messages bring to a sink. -/
def bytesOn (ch : Channel) (ms : List Message) : Bytes :=
  (ms.filter (·.channel = ch)).flatMap Message.bytes

theorem bytesOn_append (ch : Channel) (ms more : List Message) :
    bytesOn ch (ms ++ more) = bytesOn ch ms ++ bytesOn ch more := by
  rw [bytesOn, List.filter_append, List.flatMap_append, bytesOn, bytesOn]

theorem bytesOn_singleton (ch : Channel) (m : Message) :
    bytesOn ch [m] = if ch = m.channel then m.bytes else [] := by
  by_cases h : ch = m.channel
  · simp [bytesOn, h]
  · simp [bytesOn, h, Ne.symm h]

/-- What a callback brings to a sink: its line to the one, a notice or a warning to the other. -/
def Tail.says (t : Tail) : Channel → Callback → Bytes
  | .out, .event source message => Utf8.encode (formatLine source message)
  | .err, .enter source => if t.admits source && !t.quiet then (t.entered source).bytes else []
  | .err, .exit source => if t.quiet then [] else (t.left source).bytes
  | .err, .error source text => (t.failed source text).bytes
  | _, _ => []

theorem bytesOn_messages (ch : Channel) (c : Callback) :
    bytesOn ch (t.messages c) = t.says ch c := by
  cases ch <;> cases c <;> simp only [Tail.messages, Tail.says]
  case out.event | err.error => exact List.append_nil _
  case out.enter | out.exit | err.enter | err.exit =>
    split <;> first | rfl | exact List.append_nil _
  all_goals rfl

theorem bytesOn_flatMap_messages (ch : Channel) (calls : List (Nat × Callback)) :
    bytesOn ch (calls.flatMap fun c => t.messages c.2) = calls.flatMap fun c => t.says ch c.2 := by
  induction calls with
  | nil => rfl
  | cons c calls ih =>
    rw [List.flatMap_cons, bytesOn_append, bytesOn_messages, ih, List.flatMap_cons]

theorem length_messages_le (c : Callback) : (t.messages c).length ≤ 1 := by
  cases c <;> simp only [Tail.messages]
  case enter | exit => split <;> simp
  all_goals simp

/-- Lists of at most one item each can be cut before any item of their union. -/
theorem exists_of_flatMap_eq {α β : Type} {f : α → List β} (hf : ∀ a, (f a).length ≤ 1)
    {l : List α} {xs ys : List β} {b : β} (h : l.flatMap f = xs ++ b :: ys) :
    ∃ l₁ a l₂, l = l₁ ++ a :: l₂ ∧ l₁.flatMap f = xs ∧ f a = [b] ∧ l₂.flatMap f = ys := by
  induction l generalizing xs with
  | nil => simp at h
  | cons a l ih =>
    rw [List.flatMap_cons] at h
    -- the first list is empty, or its one item is the first of the union
    rcases hfa : f a with _ | ⟨b', more⟩
    · obtain ⟨l₁, a', l₂, rfl, hxs, ha', hys⟩ := ih (by rwa [hfa, List.nil_append] at h)
      exact ⟨a :: l₁, a', l₂, rfl, by rw [List.flatMap_cons, hfa, hxs, List.nil_append], ha', hys⟩
    · have hone := hf a
      obtain rfl : more = [] := by
        rw [hfa, List.length_cons] at hone
        exact List.eq_nil_of_length_eq_zero (by omega)
      rw [hfa, List.cons_append, List.nil_append] at h
      rcases xs with _ | ⟨x, xs⟩
      · obtain ⟨rfl, rfl⟩ := List.cons.inj h
        exact ⟨[], a, l, rfl, rfl, hfa, rfl⟩
      · obtain ⟨rfl, hrest⟩ := List.cons.inj h
        obtain ⟨l₁, a', l₂, rfl, hxs, ha', hys⟩ := ih hrest
        exact ⟨a :: l₁, a', l₂, rfl, by rw [List.flatMap_cons, hfa, hxs]; rfl, ha', hys⟩

theorem exists_of_flatMap_eq_append {α β : Type} {f : α → List β} (hf : ∀ a, (f a).length ≤ 1)
    {l : List α} {xs ys : List β} (h : l.flatMap f = xs ++ ys) :
    ∃ l₁ l₂, l = l₁ ++ l₂ ∧ l₁.flatMap f = xs ∧ l₂.flatMap f = ys := by
  rcases ys with _ | ⟨b, ys⟩
  · exact ⟨l, [], (List.append_nil l).symm, by rw [h, List.append_nil], rfl⟩
  · obtain ⟨l₁, a, l₂, rfl, hxs, ha, hys⟩ := exists_of_flatMap_eq hf h
    exact ⟨l₁, a :: l₂, rfl, hxs, by rw [List.flatMap_cons, ha, hys]; rfl⟩

/-! ### Accounts -/

theorem System.left_of_writing {mode : Mode} {m : Message} {left : Bytes}
    (h : s.phase = .writing mode m left) (ch : Channel) :
    s.left ch = if ch = m.channel then left else [] := by
  rw [System.left, h]

theorem System.left_of_not_writing (h : ∀ mode m left, s.phase ≠ .writing mode m left)
    (ch : Channel) : s.left ch = [] := by
  unfold System.left
  split
  · next hphase => exact absurd hphase (h _ _ _)
  · rfl
  · rfl

/-- What the queue and the sinks hold after a trace without a failure. -/
structure Accounts (t : Tail) (trace : Trace) (s : System) : Prop where
  queue : (trace.calls.flatMap fun c => t.messages c.2) = trace.taken ++ s.queue
  sinks : ∀ ch, s.sinks ch ++ s.left ch = bytesOn ch trace.taken
  /-- The message that is being written was taken last, and a part of it is written. -/
  writing : ∀ mode m left, s.phase = .writing mode m left →
    ∃ before part, trace.taken = before ++ [m] ∧ m.bytes = part ++ left

theorem accounts_ofHolder (task : Nat) : Accounts t [] (.ofHolder task) where
  queue := rfl
  sinks _ := rfl
  writing _ _ _ h := nomatch h

namespace Accounts

/-- A step that neither queues nor takes anything, and after which nothing is being written. -/
theorem quiet (a : Accounts t trace s) (hcalls : Trace.calls seen = [])
    (htaken : Trace.taken seen = []) (hqueue : s'.queue = s.queue) (hsinks : s'.sinks = s.sinks)
    (hleft : ∀ ch, s.left ch = []) (hphase : ∀ mode m left, s'.phase ≠ .writing mode m left) :
    Accounts t (trace ++ seen) s' where
  queue := by
    rw [Trace.calls_append, Trace.taken_append, hcalls, htaken, hqueue, List.append_nil,
      List.append_nil, a.queue]
  sinks ch := by
    rw [Trace.taken_append, htaken, List.append_nil, System.left_of_not_writing hphase, hsinks,
      ← a.sinks, hleft]
  writing mode m left h := absurd h (hphase mode m left)

theorem takes (a : Accounts t trace s) {mode : Mode} {m : Message} {rest : List Message}
    (h : s.phase = .waiting mode) (hq : s.queue = m :: rest) :
    Accounts t (trace ++ [.takes m])
      { s with queue := rest, phase := .writing mode m m.bytes } where
  queue := by
    rw [Trace.calls_append, Trace.taken_append]
    simpa [Trace.calls, Trace.taken, hq] using a.queue
  sinks ch := by
    have hsinks : s.sinks ch = bytesOn ch trace.taken := by
      rw [← a.sinks, System.left_of_not_writing (by simp [h]), List.append_nil]
    rw [Trace.taken_append, bytesOn_append, ← hsinks]
    exact congrArg _ (bytesOn_singleton ch m).symm
  writing mode' m' left hphase := by
    obtain ⟨rfl, rfl, rfl⟩ : mode = mode' ∧ m = m' ∧ m.bytes = left := by simpa using hphase
    exact ⟨trace.taken, [], Trace.taken_append .., rfl⟩

theorem puts (a : Accounts t trace s) {mode : Mode} {m : Message} {part left : Bytes}
    (h : s.phase = .writing mode m (part ++ left)) :
    Accounts t (trace ++ []) { s.put m.channel part with phase := .writing mode m left } where
  queue := by
    rw [List.append_nil]
    exact a.queue
  sinks ch := by
    have hsinks := a.sinks ch
    rw [List.append_nil, ← hsinks, System.left_of_writing h, System.left_of_writing rfl]
    by_cases hch : ch = m.channel
    · simp [System.put, hch]
    · simp [System.put, hch]
  writing mode' m' left' hphase := by
    obtain ⟨rfl, rfl, rfl⟩ : mode = mode' ∧ m = m' ∧ left = left' := by simpa using hphase
    obtain ⟨before, first, htaken, hbytes⟩ := a.writing _ _ _ h
    exact ⟨before, first ++ part, by rw [List.append_nil, htaken],
      by rw [hbytes, List.append_assoc]⟩

theorem step (a : Accounts t trace s) (h : s.Step t seen s') (hok : Trace.Succeeds seen) :
    Accounts t (trace ++ seen) s' := by
  cases h with
  | calls task c =>
    refine ⟨?_, fun ch => ?_, fun mode m left h => ?_⟩
    · rw [Trace.calls_append, Trace.taken_append, List.flatMap_append, a.queue]
      simp [Trace.calls, Trace.taken]
    · rw [Trace.taken_append]
      exact (a.sinks ch).trans (by rw [Trace.taken, Trace.taken]; simp)
    · rw [Trace.taken_append]
      exact (a.writing mode m left h).imp fun _ => by simp [Trace.taken]
  | shares | drops =>
    rw [List.append_nil]
    exact ⟨a.queue, a.sinks, a.writing⟩
  | begins mode h =>
    exact a.quiet rfl rfl rfl rfl (System.left_of_not_writing (by simp [h])) (by simp)
  | takes mode m rest h hq => exact a.takes h hq
  | puts mode m part left h => exact a.puts h
  | completes mode m h =>
    refine a.quiet rfl rfl rfl rfl (fun ch => ?_) (by simp)
    rw [System.left_of_writing h, ite_self]
  | fails mode m left e h => exact absurd List.mem_cons_self (hok e)
  | finishes mode h =>
    exact a.quiet rfl rfl rfl rfl (System.left_of_not_writing (by simp [h])) (by simp)
  | leaves h => exact a.quiet rfl rfl rfl rfl (System.left_of_not_writing (by simp [h])) (by simp)

end Accounts

theorem System.Run.accounts {task : Nat} (h : Run t (.ofHolder task) trace s)
    (hok : trace.Succeeds) : Accounts t trace s := by
  induction h with
  | start => exact accounts_ofHolder task
  | step _ hs ih =>
    obtain ⟨hbefore, hseen⟩ := Trace.succeeds_append_iff.mp hok
    exact (ih hbefore).step hs hseen

/-! ### Ends -/

/-- Once a `run` of the writer has ended well, the queue is empty and nobody holds the tail. -/
theorem System.Run.empty_of_returns {s₀ : System} (h : Run t s₀ trace s)
    (hreturns : .returns .run (.ok ()) ∈ trace) : s.queue = [] ∧ s.holders = [] := by
  induction h with
  | start => exact absurd hreturns List.not_mem_nil
  | @step before s s' seen _ hs ih =>
    rcases List.mem_append.mp hreturns with hbefore | hnow
    · -- without holders nothing is queued and nobody comes to hold the tail
      obtain ⟨hqueue, hholders⟩ := ih hbefore
      cases hs with
      | calls _ _ h | shares _ _ h | drops _ h =>
        rw [hholders] at h
        exact absurd h List.not_mem_nil
      | takes _ _ _ _ hq => exact absurd (hqueue.symm.trans hq) nofun
      | begins | puts | completes | fails | finishes | leaves => exact ⟨hqueue, hholders⟩
    · cases hs with
      | finishes mode h hq hh =>
        obtain rfl : Mode.run = mode := by simpa using hnow
        exact ⟨hq, hh rfl⟩
      | calls | shares | drops | begins | takes | puts | completes | fails | leaves =>
        simp at hnow

/-- Nothing is written by a writer that is idle and does not begin again. -/
theorem System.Run.sinks_eq (h : Run t s trace s') (hidle : s.phase = .idle)
    (hbegins : ∀ mode, .begins mode ∉ trace) : s'.sinks = s.sinks ∧ s'.phase = .idle := by
  induction h with
  | start => exact ⟨rfl, hidle⟩
  | step _ hs ih =>
    obtain ⟨hsinks, hphase⟩ := ih fun mode hmem => hbegins mode (List.mem_append_left _ hmem)
    cases hs with
    | calls | shares | drops => exact ⟨hsinks, hphase⟩
    | begins mode => exact absurd (List.mem_append_right _ List.mem_cons_self) (hbegins mode)
    | takes _ _ _ h | puts _ _ _ _ h | completes _ _ h
    | fails _ _ _ _ h | finishes _ h | leaves h =>
      exact absurd (hphase.symm.trans h) nofun

/-- A write that fails ends the call of the writer with its failure.  What was taken before is in
the sinks in full, and of the message that failed there is a part. -/
theorem System.Step.of_fails (h : s.Step t seen s') {e : Host.Error} (he : .fails e ∈ seen)
    (a : Accounts t trace s) :
    (∃ mode, seen = [.fails e, .returns mode (.error e)]) ∧ s'.phase = .idle ∧
      ∃ before m part, trace.taken = before ++ [m] ∧ part <+: m.bytes ∧
        ∀ ch, s'.sinks ch = bytesOn ch before ++ if ch = m.channel then part else [] := by
  cases h with
  | fails mode m left e' h =>
    obtain rfl : e = e' := by simpa using he
    obtain ⟨before, part, htaken, hbytes⟩ := a.writing _ _ _ h
    refine ⟨⟨mode, rfl⟩, rfl, before, m, part, htaken, ⟨left, hbytes.symm⟩, fun ch => ?_⟩
    have hsinks := a.sinks ch
    rw [htaken, bytesOn_append, bytesOn_singleton, System.left_of_writing h, hbytes] at hsinks
    show s.sinks ch = _
    by_cases hch : ch = m.channel
    · rw [if_pos hch, if_pos hch, ← List.append_assoc] at hsinks
      rw [if_pos hch]
      exact List.append_cancel_right hsinks
    · simpa [hch] using hsinks
  | calls | shares | drops | begins | takes | puts | completes | finishes | leaves => simp at he

/-! ### Delivery -/

/-- **Lines and notices arrive whole, once and in order.**  As long as no write fails, the calls are
those that the writer has received and then those that wait, each sink holds what the received ones
bring to it, up to what is left of the one that is being written, and so each task's come in its own
order.  A `run` has ended well only if the queue is empty and nobody holds the tail.  The first
write that fails ends the call of the writer with its failure; the sinks hold what the calls before
bring to them and a part of that message, and so it stays until the writer begins again. -/
theorem System.Run.delivers {task : Nat} (h : Run t (.ofHolder task) trace s)
    (hok : trace.Succeeds) :
    (∃ received waiting, trace.calls = received ++ waiting ∧
      s.queue = (waiting.flatMap fun c => t.messages c.2) ∧
      (∀ ch, s.sinks ch ++ s.left ch = received.flatMap fun c => t.says ch c.2) ∧
      ∀ task, received.filter (·.1 = task) <+: trace.calls.filter (·.1 = task)) ∧
    (.returns .run (.ok ()) ∈ trace → s.queue = [] ∧ s.holders = []) ∧
    ∀ seen s' e, s.Step t seen s' → .fails e ∈ seen →
      (∃ mode, seen = [.fails e, .returns mode (.error e)]) ∧
      (∃ received failing waiting m part, trace.calls = received ++ failing :: waiting ∧
        t.messages failing.2 = [m] ∧ part <+: m.bytes ∧
        ∀ ch, s'.sinks ch = (received.flatMap fun c => t.says ch c.2) ++
          if ch = m.channel then part else []) ∧
      ∀ later s'', Run t s' later s'' → (∀ mode, .begins mode ∉ later) → s''.sinks = s'.sinks := by
  have a := h.accounts hok
  refine ⟨?_, h.empty_of_returns, fun seen s' e hs he => ?_⟩
  · obtain ⟨received, waiting, hcalls, htaken, hqueue⟩ :=
      exists_of_flatMap_eq_append (fun c : Nat × Callback => length_messages_le c.2) a.queue
    refine ⟨received, waiting, hcalls, hqueue.symm, fun ch => ?_, fun task => ?_⟩
    · rw [a.sinks, ← htaken, bytesOn_flatMap_messages]
    · rw [hcalls]
      exact (List.prefix_append received waiting).filter _
  · obtain ⟨hseen, hidle, before, m, part, htaken, hpart, hsinks⟩ := hs.of_fails he a
    refine ⟨hseen, ?_, fun later s'' hlater hbegins => (hlater.sinks_eq hidle hbegins).1⟩
    have hqueue := a.queue
    rw [htaken, List.append_assoc] at hqueue
    obtain ⟨received, failing, waiting, hcalls, hbefore, hfailing, -⟩ :=
      exists_of_flatMap_eq (fun c : Nat × Callback => length_messages_le c.2) hqueue
    refine ⟨received, failing, waiting, m, part, hcalls, hfailing, hpart, fun ch => ?_⟩
    rw [hsinks, ← hbefore, bytesOn_flatMap_messages]

/-- Two tasks call back while the writer works; it writes the line of the one, and fails in the
middle of the notice of the other, which called back meanwhile. -/
theorem System.Run.delivers_diskFull :
    ∃ trace s seen s', Run {} (.ofHolder 0) trace s ∧ trace.Succeeds ∧ s.Step {} seen s' ∧
      .fails (.other "disk full") ∈ seen ∧
      s'.sinks .out = Utf8.encode "web-0:app hello\n" ∧ s'.sinks .err = Utf8.encode "==>" ∧
      (∃ mode, seen = [.fails (.other "disk full"), .returns mode (.error (.other "disk full"))]) ∧
      ∀ later s'', Run {} s' later s'' → (∀ mode, .begins mode ∉ later) → s''.sinks = s'.sinks := by
  let tail : Tail := {}
  have hshared : Run tail (.ofHolder 0) [] _ := .one (.shares 0 1 (by decide))
  have hcalled := hshared.step (.calls 0 (.event ⟨"web-0", "app"⟩ "hello\r\n") (by decide))
  have hbegun := hcalled.step (.begins .run rfl)
  have htaken := hbegun.step (.takes .run (.line "web-0:app hello\n") [] rfl (by decide))
  have hagain := htaken.step (.calls 1 (.enter ⟨"db-0", "main"⟩) (by decide))
  have hput := hagain.step (.puts .run _ (Utf8.encode "web-0:app hello\n") [] rfl)
  have hwaits := hput.step (.completes .run _ rfl)
  have hnotice := hwaits.step
    (.takes .run (.notice "==> Detected container db-0:main\n") [] rfl (by decide))
  have hpart := hnotice.step (.puts .run _ (Utf8.encode "==>")
    (Utf8.encode " Detected container db-0:main\n") rfl)
  obtain ⟨hseen, -, hlater⟩ := (hpart.delivers fun e => by simp).2.2 _ _ (.other "disk full")
    (.fails .run _ _ _ rfl) List.mem_cons_self
  refine ⟨_, _, _, _, hpart, fun e => ?_, .fails .run _ _ _ rfl, List.mem_cons_self, rfl, rfl,
    hseen, hlater⟩
  simp

end Rollout.Logs
