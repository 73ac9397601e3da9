/-
A timeline is one of the runs of a watch.

`Timeline.run` works out what a watch does when its answers and logs are known; `System.Run` allows
every schedule.  Step by step, the one does what the other may do:

* `At.meet` and its like take one step of one follower, and `At.advanceEvents` all that it takes
  before a time;
* `Replays` is what holds between a timeline and a run that gets as far;
* `Timeline.run_replayed`: whatever a timeline records is what is seen in a run.

Design notes: a timeline lets its tasks run one after another, not by the times of what they read.
A run may do the same, as the steps of followers between two steps of the loop commute.
-/
import Rollout.Kubernetes.Timeline
import Rollout.Proofs.Kubernetes.Callbacks

namespace Rollout.Kubernetes

/-! ### Records -/

/-- What a timeline records of a thing that is seen. -/
def Seen.record? : Seen → Option (ContainerKey × Record)
  | .call key (.enter admitted) => some (key, .enter admitted)
  | .call key (.event line) => some (key, .event line)
  | .call key (.error text) => some (key, .error text)
  | .call key .exit => some (key, .exit)
  | .asks key since => some (key, .follow since)
  | .listing _ | .meets _ _ => none

/-- The records of what is seen in a run. -/
def Trace.records (trace : Trace) : List (ContainerKey × Nat × Record) :=
  trace.filterMap fun (time, x) => x.record?.map fun (key, r) => (key, time, r)

theorem Trace.records_append (xs ys : Trace) :
    Trace.records (xs ++ ys) = Trace.records xs ++ Trace.records ys :=
  List.filterMap_append

/-- What a follower reports, as a timeline records it. -/
def FollowerReport.record : FollowerReport → Record
  | .event line => .event line
  | .error text => .error text

theorem Trace.records_follower (time : Nat) (key : ContainerKey) (e : LogEvent)
    (reports : List FollowerReport) :
    Trace.records
        ((.meets key e :: reports.map fun r => .call key r.callback).map ((time, ·) : Seen → _))
      = reports.map fun r => (key, time, r.record) := by
  induction reports with
  | nil => rfl
  | cons r reports ih =>
    cases r <;> exact congrArg _ ih

/-! ### Followers -/

/-- Events that a follower can read one after another, none of them before a time. -/
def Ready (clock : Nat) (state : FollowerState) : List (Nat × LogEvent) → Prop
  | [] => True
  | (time, e) :: rest =>
    clock ≤ time ∧ state.expects e = true ∧ Ready time (state.step e).1 rest

theorem Ready.earlier {clock clock' : Nat} {state : FollowerState} {es : List (Nat × LogEvent)}
    (h : Ready clock state es) (hle : clock' ≤ clock) : Ready clock' state es := by
  cases es with
  | nil => trivial
  | cons p es => exact ⟨Nat.le_trans hle h.1, h.2⟩

theorem ready_items (now : Nat) (is : List ScriptItem) :
    Ready now .reading (ScriptItem.events now is) := by
  induction is generalizing now with
  | nil => exact ⟨Nat.le_refl now, rfl, trivial⟩
  | cons i is ih =>
    cases i with
    | line text => exact ⟨Nat.le_refl now, rfl, ih now⟩
    | wait ms => exact (ih (now + ms)).earlier (Nat.le_add_right now ms)
    | error e => exact ⟨Nat.le_refl now, rfl, trivial⟩
    | hang => trivial

theorem Script.ready_events (now : Nat) (s : Script) : Ready now .opening (s.events now) := by
  cases s with
  | openError e => exact ⟨Nat.le_refl now, rfl, trivial⟩
  | items is => exact ⟨Nat.le_refl now, rfl, ready_items now is⟩

/-- A run has come to a state with one worker among the others. -/
structure At (trace : Trace) (s : System) (before later : List Worker) (w : Worker) : Prop where
  run : System.Run trace s
  workers : s.workers = before ++ w :: later

namespace At

variable {trace : Trace} {s : System} {before later : List Worker} {w : Worker} {now : Nat}

theorem mem (h : At trace s before later w) : w ∈ s.workers := by
  rw [h.workers]
  exact List.mem_append_right _ List.mem_cons_self

/-- A step of the worker changes this one alone. -/
theorem step (h : At trace s before later w) {w' : Worker} {seen : List Seen}
    (hs : s.Step now seen (s.setWorker w')) (hid : w'.id = w.id) :
    At (trace ++ seen.map (now, ·)) (s.setWorker w') before later w' := by
  refine ⟨h.run.step hs, ?_⟩
  -- the worker is found by its number, which none of the others has
  have hn := h.run.accounted.coherent.nodup_ids
  rw [h.workers, List.map_append, List.map_cons] at hn
  have hmiddle := List.nodup_middle.mp hn
  rw [List.nodup_cons, List.mem_append] at hmiddle
  push Not at hmiddle
  obtain ⟨⟨hbefore, hlater⟩, -⟩ := hmiddle
  have hother {ws : List Worker} (hws : w.id ∉ ws.map Worker.id) :
      ws.map (fun v => if v.id = w'.id then w' else v) = ws := by
    refine (List.map_congr_left fun v hv => ?_).trans (List.map_id ws)
    have hne : v.id ≠ w.id := fun he => hws (he ▸ List.mem_map_of_mem hv)
    rw [hid, if_neg hne, id]
  rw [System.setWorker, h.workers, List.map_append, List.map_cons, hother hbefore, hother hlater,
    if_pos hid.symm]

theorem begin (h : At trace s before later w) (ha : w.aborted = false) (hb : w.begun = false)
    (hl : s.clock ≤ now) (ht : w.clock ≤ now) :
    At (trace ++ [(now, .asks w.key w.since)]) (s.setWorker (w.begin now)) before later
      (w.begin now) :=
  h.step (.begins w h.mem ha hb hl ht) rfl

theorem meet (h : At trace s before later w) (e : LogEvent) (ha : w.aborted = false)
    (hb : w.begun = true) (he : w.state.expects e = true) (hl : s.clock ≤ now)
    (ht : w.clock ≤ now) :
    At (trace ++ (.meets w.key e :: (w.state.step e).2.map fun r => .call w.key r.callback).map
      (now, ·)) (s.setWorker (w.meet now e)) before later (w.meet now e) :=
  h.step (.follows w e h.mem ha hb he hl ht) rfl

theorem cancel (h : At trace s before later w) (ha : w.aborted = true) (hn : w.endedAt = none)
    (hl : s.clock ≤ now) (ht : w.clock ≤ now) :
    At trace (s.setWorker (w.cancel now)) before later (w.cancel now) := by
  have := h.step (.cancels w h.mem ha hn hl ht) rfl
  rwa [List.map_nil, List.append_nil] at this

end At

/-- A task after an event. -/
def Task.take (time : Nat) (e : LogEvent) (t : Task) : Task :=
  { t with
    state := (t.state.step e).1
    endedAt := if (t.state.step e).1 == .ended && t.endedAt.isNone then some time
      else t.endedAt }

theorem Timeline.advanceEvents_cons {limit time : Nat} (h : time < limit) (t : Task)
    (e : LogEvent) (es : List (Nat × LogEvent)) :
    advanceEvents limit t ((time, e) :: es) =
      ((advanceEvents limit (t.take time e) es).1,
        (t.state.step e).2.map (fun r => (time, r.record))
          ++ (advanceEvents limit (t.take time e) es).2) := by
  rw [advanceEvents, if_pos h]
  have hrecord : (fun r : FollowerReport => (time, r.record)) = fun r => (time, match r with
      | .event line => Record.event line
      | .error text => .error text) := by
    funext r
    cases r <;> rfl
  rw [hrecord]
  rfl

theorem Timeline.key_advanceEvents (limit : Nat) (t : Task) (es : List (Nat × LogEvent)) :
    (advanceEvents limit t es).1.key = t.key := by
  induction es generalizing t with
  | nil => rfl
  | cons p es ih =>
    by_cases h : p.1 < limit
    · rw [advanceEvents_cons h]
      exact ih _
    · rw [advanceEvents, if_neg h]

/-- A task of a timeline is one of a run; it does no more before a time. -/
structure Tracks (limit : Nat) (t : Task) (w : Worker) : Prop where
  id : w.id = t.id
  key : w.key = t.key
  state : w.state = t.state
  endedAt : w.endedAt = t.endedAt
  clock : w.clock ≤ limit
  waits : ∀ time since, t.begins = some (time, since) →
    limit ≤ time ∧ w.since = since ∧ w.begun = false ∧ w.aborted = false ∧
      t.state = .opening ∧ t.endedAt = none
  reads : t.pending ≠ [] →
    t.begins = none ∧ w.begun = true ∧ w.aborted = false ∧ t.endedAt = none
  ready : Ready limit t.state t.pending

/-- What one task of a timeline does before a time, the worker does in a run. -/
structure Advanced (limit : Nat) (s : System) (before later : List Worker) (t : Task)
    (records : List (ContainerKey × Nat × Record)) (trace : Trace) (s' : System) (w : Worker) :
    Prop where
  at_ : At trace s' before later w
  records : trace.records = records
  tracks : Tracks limit t w
  watch : s'.watch = s.watch
  phase : s'.phase = s.phase
  clock : s'.clock = s.clock
  latest : s'.latest ≤ limit

theorem not_ready_ended {clock : Nat} {es : List (Nat × LogEvent)} (h : Ready clock .ended es) :
    es = [] := by
  cases es with
  | nil => rfl
  | cons p es => exact absurd h.2.1 (by simp [FollowerState.expects])

/-- A task that takes an event still is the one of the run. -/
theorem Tracks.meet {now time : Nat} {t : Task} {w : Worker} {e : LogEvent}
    {es : List (Nat × LogEvent)} (h : Tracks now { t with pending := (time, e) :: es } w)
    (hb : t.begins = none) :
    Tracks time { t.take time e with pending := es } (w.meet time e) := by
  have hstate : w.state = t.state := h.state
  have hend' : w.endedAt = t.endedAt := h.endedAt
  obtain ⟨-, hbegun, haborted, hend⟩ := h.reads (by simp)
  have hend : t.endedAt = none := hend
  obtain ⟨-, -, hrest⟩ := h.ready
  refine ⟨h.id, h.key, ?_, ?_, Nat.le_refl time, by simp [Task.take, hb], ?_, hrest⟩
  · simp only [Worker.meet, Task.take, hstate]
  · simp only [Worker.meet, Task.take, hstate, hend', hend]
    by_cases hs : (t.state.step e).1 = .ended <;> simp [hs]
  · intro hes
    have hs : (t.state.step e).1 ≠ .ended := by
      intro hs
      change Ready time (t.state.step e).1 es at hrest
      rw [hs] at hrest
      exact hes (not_ready_ended hrest)
    refine ⟨hb, hbegun, haborted, ?_⟩
    simp [Task.take, hs, hend]

theorem At.advanceEvents {limit : Nat} {before later : List Worker} (es : List (Nat × LogEvent)) :
    ∀ {trace : Trace} {s : System} {w : Worker} {t : Task} {now : Nat},
      At trace s before later w → Tracks now { t with pending := es } w → t.begins = none →
      now ≤ limit → s.clock ≤ now → s.latest ≤ limit →
      ∃ trace' s' w', Advanced limit s before later (Timeline.advanceEvents limit t es).1
        (trace.records ++ (Timeline.advanceEvents limit t es).2.map fun (time, r) =>
          (t.key, time, r)) trace' s' w' := by
  induction es with
  | nil =>
    intro trace s w t now h ht hb hle hc hl
    refine ⟨trace, s, w, h, by simp [Timeline.advanceEvents], ?_, rfl, rfl, rfl, hl⟩
    exact ⟨ht.id, ht.key, ht.state, ht.endedAt, ht.clock.trans hle, by simp [hb,
      Timeline.advanceEvents], by simp [Timeline.advanceEvents], trivial⟩
  | cons p es ih =>
    -- an event before the time is a step of the run, and the rest begins at its time
    obtain ⟨time, e⟩ := p
    intro trace s w t now h ht hb hle hc hl
    obtain ⟨hready, hexpects, hrest⟩ := ht.ready
    obtain ⟨-, hbegun, haborted, hend⟩ := ht.reads (by simp)
    by_cases hlt : time < limit
    · have hstate : w.state = t.state := ht.state
      have hkey : w.key = t.key := ht.key
      have hmeet := h.meet e haborted hbegun (hstate ▸ hexpects) (hc.trans hready)
        (ht.clock.trans hready)
      obtain ⟨trace', s', w', hadv⟩ := ih hmeet (ht.meet hb) hb hlt.le (hc.trans hready)
        (max_le hl hlt.le)
      rw [Timeline.advanceEvents_cons hlt]
      refine ⟨trace', s', w', hadv.at_, hadv.records.trans ?_, hadv.tracks, hadv.watch,
        hadv.phase, hadv.clock, hadv.latest⟩
      rw [Trace.records_append, Trace.records_follower, hstate, hkey, List.append_assoc,
        List.map_append, List.map_map]
      rfl
    · rw [Timeline.advanceEvents, if_neg hlt]
      refine ⟨trace, s, w, h, by simp, ?_, rfl, rfl, rfl, hl⟩
      exact ⟨ht.id, ht.key, ht.state, ht.endedAt, ht.clock.trans hle, by simp [hb],
        fun _ => ⟨hb, hbegun, haborted, hend⟩, Nat.le_of_not_lt hlt, hexpects, hrest⟩

theorem At.advancePending {limit now : Nat} {before later : List Worker} {trace : Trace}
    {s : System} {w : Worker} {t : Task} (h : At trace s before later w) (ht : Tracks now t w)
    (hb : t.begins = none) (hle : now ≤ limit) (hc : s.clock ≤ now) (hl : s.latest ≤ limit) :
    ∃ trace' s' w', Advanced limit s before later (Timeline.advanceEvents limit t t.pending).1
      (trace.records ++ (Timeline.advanceEvents limit t t.pending).2.map fun (time, r) =>
        (t.key, time, r)) trace' s' w' :=
  h.advanceEvents t.pending ht hb hle hc hl

/-- A task that begins is the one of the run, whatever its log has. -/
theorem Tracks.begin {now time : Nat} {since : Option Nat} {t : Task} {w : Worker}
    (h : Tracks now t w) (hb : t.begins = some (time, since)) (script : Script) :
    Tracks time { t with begins := none, pending := script.events time } (w.begin time) := by
  obtain ⟨-, -, -, haborted, hopening, hend⟩ := h.waits time since hb
  refine ⟨h.id, h.key, h.state, h.endedAt, Nat.le_refl time, by simp,
    fun _ => ⟨rfl, rfl, haborted, hend⟩, ?_⟩
  change Ready time t.state (script.events time)
  rw [hopening]
  exact script.ready_events time

theorem At.advanceTask {limit now : Nat} {before later : List Worker} {trace : Trace} {s : System}
    {w : Worker} {t : Task} (set : Setting) (tl : Timeline) (h : At trace s before later w)
    (hr : trace.records = tl.records) (ht : Tracks now t w) (hle : now ≤ limit)
    (hc : s.clock ≤ now) (hl : s.latest ≤ limit) :
    ∃ t' trace' s' w', (tl.advanceTask set limit t).tasks = tl.tasks ++ [t'] ∧
      (tl.advanceTask set limit t).watch = tl.watch ∧
      Advanced limit s before later t' (tl.advanceTask set limit t).records trace' s' w' := by
  unfold Timeline.advanceTask Timeline.beginTask
  cases hb : t.begins with
  | none =>
    obtain ⟨trace', s', w', hadv⟩ := h.advancePending ht hb hle hc hl
    refine ⟨_, trace', s', w', rfl, rfl, ?_⟩
    simp only [Timeline.key_advanceEvents, ← hr]
    exact hadv
  | some p =>
    obtain ⟨time, since⟩ := p
    obtain ⟨htime, hsince, hbegun, haborted, -⟩ := ht.waits time since hb
    by_cases hlt : time < limit
    · have hbegin := h.begin haborted hbegun (hc.trans htime) (ht.clock.trans htime)
      have htracks := ht.begin hb (set.script t.key ((tl.opened.lookup t.key).getD 0))
      obtain ⟨trace', s', w', hadv⟩ := hbegin.advancePending htracks rfl hlt.le
        (hc.trans htime) (max_le hl hlt.le)
      simp only [hlt, if_true, Timeline.key_advanceEvents]
      refine ⟨_, trace', s', w', rfl, trivial, hadv.at_, hadv.records.trans ?_, hadv.tracks,
        hadv.watch, hadv.phase, hadv.clock, hadv.latest⟩
      rw [Trace.records_append, hr, hsince, ht.key]
      rfl
    · -- it has not begun, so there is nothing to read
      have hpending : t.pending = [] := by
        by_contra hp
        rw [(ht.reads hp).1] at hb
        exact absurd hb nofun
      simp only [hlt, if_false, hpending, Timeline.advanceEvents, List.map_nil, List.append_nil]
      refine ⟨_, trace, s, w, rfl, trivial, h, hr, ?_, rfl, rfl, rfl, hl⟩
      refine ⟨ht.id, ht.key, ht.state, ht.endedAt, ht.clock.trans hle, ?_, by simp, trivial⟩
      intro time' since' hb'
      obtain ⟨rfl, rfl⟩ : time = time' ∧ since = since' := by simpa [hb] using hb'
      exact ⟨Nat.le_of_not_lt hlt, (ht.waits time since hb).2⟩

/-- A run that gets as far as a timeline.  The tasks of the timeline have come to a time, and some
more, still to come, have come to an earlier one. -/
structure Replays (phase : Phase) (now limit : Nat) (tl : Timeline) (todo : List Task)
    (trace : Trace) (s : System) : Prop where
  run : System.Run trace s
  records : trace.records = tl.records
  watch : s.watch = tl.watch
  phase : s.phase = phase
  workers : ∃ before later, s.workers = before ++ later ∧
    List.Forall₂ (Tracks limit) tl.tasks before ∧ List.Forall₂ (Tracks now) todo later
  clock : s.clock ≤ now
  latest : s.latest ≤ limit

namespace Replays

variable {phase : Phase} {now limit : Nat} {tl : Timeline} {todo : List Task} {trace : Trace}
  {s : System}

theorem start : Replays .tick 0 0 {} [] [] {} :=
  ⟨.start, rfl, rfl, rfl, ⟨[], [], rfl, .nil, .nil⟩, Nat.le_refl 0, Nat.le_refl 0⟩

theorem tasks (h : Replays phase now limit tl [] trace s) :
    List.Forall₂ (Tracks limit) tl.tasks s.workers := by
  obtain ⟨before, later, hworkers, hbefore, hlater⟩ := h.workers
  cases hlater
  rwa [hworkers, List.append_nil]

/-- One more task comes to the time. -/
theorem advanceTask (set : Setting) {t : Task} (h : Replays phase now limit tl (t :: todo) trace s)
    (hle : now ≤ limit) :
    ∃ trace' s', Replays phase now limit (tl.advanceTask set limit t) todo trace' s' := by
  obtain ⟨before, later, hworkers, hbefore, hlater⟩ := h.workers
  cases hlater with
  | cons ht hlater =>
    next w later =>
    have hat : At trace s before later w := ⟨h.run, hworkers⟩
    obtain ⟨t', trace', s', w', htasks, hwatch, hadv⟩ :=
      hat.advanceTask set tl h.records ht hle h.clock h.latest
    refine ⟨trace', s', hadv.at_.run, hadv.records, ?_, hadv.phase.trans h.phase, ?_, ?_,
      hadv.latest⟩
    · rw [hadv.watch, hwatch, h.watch]
    · refine ⟨before ++ [w'], later, ?_, ?_, hlater⟩
      · rw [hadv.at_.workers, List.append_assoc, List.singleton_append]
      · rw [htasks]
        exact List.rel_append hbefore (.cons hadv.tracks .nil)
    · rw [hadv.clock]
      exact h.clock

/-- The tasks to come all come to the time. -/
theorem advanceTasks (set : Setting) (h : Replays phase now limit tl todo trace s)
    (hle : now ≤ limit) :
    ∃ trace' s', Replays phase limit limit
      (todo.foldl (fun acc t => acc.advanceTask set limit t) tl) [] trace' s' := by
  -- a task that is done stands behind the others, and the next one is the first to come
  induction todo generalizing tl trace s with
  | nil =>
    exact ⟨trace, s, h.run, h.records, h.watch, h.phase,
      ⟨s.workers, [], by simp, h.tasks, .nil⟩, h.clock.trans hle, h.latest⟩
  | cons t todo ih =>
    obtain ⟨trace', s', h'⟩ := h.advanceTask set hle
    exact ih h'

/-- What followers do between two steps of the loop. -/
theorem advance (set : Setting) (h : Replays phase now now tl [] trace s) (hle : now ≤ limit) :
    ∃ trace' s', Replays phase limit limit (tl.advance set limit) [] trace' s' := by
  have hopen : Replays phase now limit { tl with tasks := [] } tl.tasks trace s :=
    ⟨h.run, h.records, h.watch, h.phase, ⟨[], s.workers, rfl, .nil, h.tasks⟩, h.clock,
      h.latest.trans hle⟩
  exact hopen.advanceTasks set hle

end Replays

theorem Timeline.foldl_report (time : Nat) (reports : List Report) (tl : Timeline) :
    reports.foldl (report time) tl = { tl with
      records := tl.records ++ Trace.records (reports.map fun r => (time, r.seen)) } := by
  induction reports generalizing tl with
  | nil => simp [Trace.records]
  | cons r reports ih =>
    rw [List.foldl_cons, ih]
    cases r <;> simp [report, Trace.records, Report.seen, Seen.record?]

theorem Tracks.filterMap_ended {limit : Nat} {ts : List Task} {ws : List Worker}
    (h : List.Forall₂ (Tracks limit) ts ws) :
    (ws.filterMap fun w => w.endedAt.map (w.id, ·))
      = ts.filterMap fun t => t.endedAt.map (t.id, ·) := by
  induction h with
  | nil => rfl
  | cons ht _ ih => rw [List.filterMap_cons, List.filterMap_cons, ih, ht.endedAt, ht.id]

theorem Tracks.exists_task {limit : Nat} {ts : List Task} {ws : List Worker}
    (h : List.Forall₂ (Tracks limit) ts ws) {w : Worker} (hw : w ∈ ws) :
    ∃ t ∈ ts, Tracks limit t w := by
  induction h with
  | nil => exact absurd hw List.not_mem_nil
  | cons ht _ ih =>
    rcases List.mem_cons.mp hw with rfl | hw
    · exact ⟨_, List.mem_cons_self, ht⟩
    · obtain ⟨t, hmem, ht⟩ := ih hw
      exact ⟨t, List.mem_cons_of_mem _ hmem, ht⟩

theorem Tracks.filter_ended {limit : Nat} {ts : List Task} {ws : List Worker}
    (h : List.Forall₂ (Tracks limit) ts ws) :
    List.Forall₂ (Tracks limit) (ts.filter (·.endedAt.isNone)) (ws.filter (·.endedAt.isNone)) := by
  induction h with
  | nil => exact .nil
  | cons ht _ ih =>
    rw [List.filter_cons, List.filter_cons, ht.endedAt]
    split
    · exact .cons ht ih
    · exact ih

/-- A task that was stopped is over at once. -/
def Worker.settle (now : Nat) (w : Worker) : Worker :=
  if w.aborted = true ∧ w.endedAt = none then w.cancel now else w

theorem System.Run.exists_settled {trace : Trace} {now : Nat} (later : List Worker) :
    ∀ {s : System} (before : List Worker), System.Run trace s → s.workers = before ++ later →
      s.clock ≤ now → (∀ w ∈ later, w.clock ≤ now) → s.latest ≤ now →
      ∃ s', System.Run trace s' ∧ s'.workers = before ++ later.map (Worker.settle now) ∧
        s'.watch = s.watch ∧ s'.phase = s.phase ∧ s'.clock = s.clock ∧ s'.latest ≤ now := by
  induction later with
  | nil =>
    intro s before hr hws hc _ hl
    exact ⟨s, hr, hws, rfl, rfl, rfl, hl⟩
  | cons w later ih =>
    intro s before hr hws hc ht hl
    obtain ⟨hw, hlater⟩ := List.forall_mem_cons.mp ht
    have hat : At trace s before later w := ⟨hr, hws⟩
    by_cases hstop : w.aborted = true ∧ w.endedAt = none
    · have hcancel := hat.cancel hstop.1 hstop.2 hc hw
      obtain ⟨s', hr', hws', hrest⟩ := ih (before ++ [w.cancel now]) hcancel.run
        (by rw [hcancel.workers, List.append_assoc, List.singleton_append]) hc hlater
        (max_le hl (Nat.le_refl now))
      refine ⟨s', hr', ?_, hrest⟩
      rw [hws', List.map_cons, Worker.settle, if_pos hstop, List.append_assoc,
        List.singleton_append]
    · obtain ⟨s', hr', hws', hrest⟩ := ih (before ++ [w]) hr
        (by rw [hws, List.append_assoc, List.singleton_append]) hc hlater hl
      refine ⟨s', hr', ?_, hrest⟩
      rw [hws', List.map_cons, Worker.settle, if_neg hstop, List.append_assoc,
        List.singleton_append]

/-- A task is stopped just when the worker of the run is: when it has lost its handle. -/
theorem Tracks.stop {now : Nat} {t : Task} {w : Worker} (h : Tracks now t w) {f : Followers}
    {dropped : List (ContainerKey × Nat)}
    (hlive : (w.stopIn dropped).aborted = false ↔ f.handles.lookup w.key = some w.id) :
    Tracks now (t.stop now f) ((w.stopIn dropped).settle now) := by
  rw [h.key, h.id] at hlive
  by_cases hlookup : f.handles.lookup t.key = some t.id
  · have haborted := hlive.mpr hlookup
    have hsame : w.stopIn dropped = w := by
      have hor : (w.aborted || dropped.any (·.2 == w.id)) = false := haborted
      rw [Worker.stopIn, hor, ← (Bool.or_eq_false_iff.mp hor).1]
    rw [Task.stop, if_pos (by simpa using hlookup), Worker.settle,
      if_neg (by rw [haborted]; simp), hsame]
    exact h
  · have haborted : (w.stopIn dropped).aborted = true := by
      rw [← Bool.not_eq_false]
      exact fun hfalse => hlookup (hlive.mp hfalse)
    rw [Task.stop, if_neg (by simpa using hlookup), Worker.settle]
    cases hend : t.endedAt with
    | none =>
      have hend' : w.endedAt = none := h.endedAt.trans hend
      rw [if_pos ⟨haborted, hend'⟩]
      exact ⟨h.id, h.key, h.state, rfl, Nat.le_refl now, by simp, by simp, trivial⟩
    | some time =>
      have hend' : w.endedAt = some time := h.endedAt.trans hend
      rw [if_neg (by simp [Worker.stopIn, hend'])]
      exact ⟨h.id, h.key, h.state, hend', h.clock, by simp, by simp, trivial⟩

theorem Tracks.stop_all {now : Nat} {ts : List Task} {ws : List Worker}
    (h : List.Forall₂ (Tracks now) ts ws) {f : Followers} {dropped : List (ContainerKey × Nat)}
    (hlive : ∀ w ∈ ws.map (Worker.stopIn dropped),
      w.aborted = false ↔ f.handles.lookup w.key = some w.id) :
    List.Forall₂ (Tracks now) (ts.map (Task.stop now f))
      (ws.map (Worker.settle now ∘ Worker.stopIn dropped)) := by
  induction h with
  | nil => exact .nil
  | cons ht _ ih =>
    rw [List.map_cons, List.forall_mem_cons] at hlive
    exact .cons (ht.stop hlive.1) (ih hlive.2)

namespace Replays

variable {now : Nat} {tl : Timeline} {trace : Trace} {s : System}

/-- The loop comes to a tick. -/
theorem reap (h : Replays .tick now now tl [] trace s) :
    ∃ trace' s', Replays .answer now now (tl.reap now) [] trace' s' := by
  have hended : s.ended = tl.tasks.filterMap fun t => t.endedAt.map (t.id, ·) :=
    Tracks.filterMap_ended h.tasks
  have hstep := h.run.step (.poll s.ended h.phase h.latest (.refl _))
  simp only [Timeline.reap, Timeline.foldl_report, ← hended, ← h.watch]
  refine ⟨_, _, hstep, ?_, rfl, rfl, ?_, Nat.le_refl now, Nat.le_refl now⟩
  · rw [Trace.records_append, h.records, List.map_map]
    rfl
  · exact ⟨_, [], (List.append_nil _).symm, Tracks.filter_ended h.tasks, .nil⟩

/-- The loop comes to a tick and waits for the answer; the followers go on all the time. -/
theorem poll (set : Setting) (h : Replays .tick now now tl [] trace s) {came ready : Nat}
    (polls : List Nat) (hcame : now ≤ came) (hready : came ≤ ready) :
    ∃ trace' s', Replays .answer ready ready
      (Timeline.advance set ready { (tl.advance set came).reap came with polls := polls }) []
      trace' s' := by
  obtain ⟨_, _, hcome⟩ := h.advance set hcame
  obtain ⟨_, _, hreap⟩ := hcome.reap
  have hpolls : Replays .answer came came { (tl.advance set came).reap came with polls := polls }
      [] _ _ :=
    ⟨hreap.run, hreap.records, hreap.watch, hreap.phase, hreap.workers, hreap.clock,
      hreap.latest⟩
  exact hpolls.advance set hready

/-- The listing failed, and the watch goes on. -/
theorem missed (h : Replays .answer now now tl [] trace s) {e : ClusterError} {w : Watch}
    (hw : tl.watch.listingFailed e = .ok w) :
    ∃ trace' s', Replays .tick now now { tl with watch := w } [] trace' s' := by
  have hstep := h.run.step (.missed e w h.phase h.latest (h.watch ▸ hw))
  rw [List.map_nil, List.append_nil] at hstep
  exact ⟨_, _, hstep, h.records, rfl, rfl, h.workers, Nat.le_refl now, Nat.le_refl now⟩

/-- The listing failed, and the watch with it. -/
theorem fails (h : Replays .answer now now tl [] trace s) {e f : ClusterError}
    (hw : tl.watch.listingFailed e = .error f) :
    ∃ trace' s', Replays (.failed f) now now tl [] trace' s' := by
  have hstep := h.run.step (.fails e f h.phase h.latest (h.watch ▸ hw))
  rw [List.map_nil, List.append_nil] at hstep
  exact ⟨_, _, hstep, h.records, h.watch, rfl, h.workers, Nat.le_refl now, Nat.le_refl now⟩

/-- The pods are there. -/
theorem listed (set : Setting) (h : Replays .answer now now tl [] trace s) (pods : List Pod) :
    ∃ trace' s', Replays .tick now now (tl.listed set now pods) [] trace' s' := by
  have hstep := h.run.step (.listed pods (runningContainers pods) set.accept
    (s.retained (runningContainers pods)).2 h.phase h.latest (.refl _) (.refl _))
  generalize hcurrent : runningContainers pods = current at hstep
  rcases hoffer : (s.retained current).1.offerAll set.accept now current with
    ⟨watch, enters, starts⟩
  simp only [hoffer] at hstep
  have hlive := hstep.accounted.coherent.live_iff
  simp only at hlive
  have hclocks : ∀ w ∈ s.workers.map (Worker.stopIn (s.dropped current))
      ++ starts.map (Worker.ofStart now), w.clock ≤ now := by
    intro w hw
    rcases List.mem_append.mp hw with hw | hw
    · obtain ⟨v, hv, rfl⟩ := List.mem_map.mp hw
      obtain ⟨t, -, ht⟩ := Tracks.exists_task h.tasks hv
      exact ht.clock
    · obtain ⟨st, -, rfl⟩ := List.mem_map.mp hw
      exact Nat.le_refl now
  obtain ⟨s', hrun, hworkers, hwatch, hphase, hclock, hlatest⟩ :=
    System.Run.exists_settled (s.workers.map (Worker.stopIn (s.dropped current))
      ++ starts.map (Worker.ofStart now)) [] hstep rfl (Nat.le_refl now) hclocks (Nat.le_refl now)
  rw [List.nil_append, List.map_append, List.map_map, List.map_map] at hworkers
  have hretain : ({ s.watch with first := false } : Watch).retain current = s.retained current :=
    rfl
  simp only [Timeline.listed, Timeline.foldl_report, Watch.listed, ← h.watch, hcurrent, hretain,
    hoffer]
  refine ⟨_, s', hrun, ?_, hwatch, hphase, ?_, hclock.le, hlatest⟩
  · rw [Trace.records_append, h.records]
    simp only [Trace.records, List.map_append, List.map_map, List.map_cons, List.cons_append,
      List.filterMap_cons, Seen.record?, Option.map_none]
    rfl
  · refine ⟨_, [], (hworkers.trans (List.append_nil _).symm), List.rel_append ?_ ?_, .nil⟩
    · exact Tracks.stop_all h.tasks fun w hw => hlive w (List.mem_append_left _ hw)
    · rw [List.forall₂_map_left_iff, List.forall₂_map_right_iff, List.forall₂_same]
      intro st _
      refine ⟨rfl, rfl, rfl, rfl, Nat.le_refl now, ?_, by simp, trivial⟩
      intro time since hb
      obtain ⟨rfl, rfl⟩ : now = time ∧ st.since = since := by simpa using hb
      exact ⟨Nat.le_refl now, rfl, rfl, rfl, rfl, rfl⟩

end Replays

namespace Timeline

/-- A timeline goes on as a run does, from where both are. -/
theorem replays_run (set : Setting) (until_ number due came : Nat) (tl : Timeline) :
    ∀ {trace : Trace} {s : System} {now : Nat}, Replays .tick now now tl [] trace s →
      now ≤ came → now ≤ until_ →
      ∃ trace' s' phase last,
        Replays phase last last (run set until_ number due came tl).2 [] trace' s' ∧
        ∀ result, (run set until_ number due came tl).1 = some result →
          ∃ e, result = .error e ∧ phase = .failed e := by
  fun_induction run set until_ number due came tl with
  | case1 number due came tl hover =>
    intro trace s now h hcame huntil
    obtain ⟨trace', s', h'⟩ := h.advance set huntil
    exact ⟨trace', s', _, _, h', nofun⟩
  | case2 =>
    rename_i number due came tl hover tl₁ tl₂ listing ready hlate
    intro trace s now h hcame huntil
    obtain ⟨hdue, -⟩ := not_or.mp hover
    obtain ⟨trace', s', h'⟩ := h.poll set tl₂.polls hcame (Nat.le_of_not_lt hdue)
    exact ⟨trace', s', _, _, h', nofun⟩
  | case3 =>
    rename_i number due came tl hover tl₁ tl₂ listing ready hlate tl₃ e ha f hf
    intro trace s now h hcame huntil
    obtain ⟨_, _, hpoll⟩ := h.poll set tl₂.polls hcame (Nat.le_add_right came listing.delay)
    obtain ⟨trace', s', h'⟩ := hpoll.fails hf
    refine ⟨trace', s', _, _, h', fun result hresult => ⟨f, ?_, rfl⟩⟩
    exact (Option.some_inj.mp hresult).symm
  | case4 =>
    rename_i number due came tl hover tl₁ tl₂ listing ready hlate tl₃ due' e ha w hw ih
    intro trace s now h hcame huntil
    obtain ⟨_, _, hpoll⟩ := h.poll set tl₂.polls hcame (Nat.le_add_right came listing.delay)
    obtain ⟨_, _, h'⟩ := hpoll.missed hw
    exact ih h' (Nat.le_max_right due' ready) (Nat.le_of_not_lt hlate)
  | case5 =>
    rename_i number due came tl hover tl₁ tl₂ listing ready hlate tl₃ due' pods ha ih
    intro trace s now h hcame huntil
    obtain ⟨_, _, hpoll⟩ := h.poll set tl₂.polls hcame (Nat.le_add_right came listing.delay)
    obtain ⟨_, _, h'⟩ := hpoll.listed set pods
    exact ih h' (Nat.le_max_right due' ready) (Nat.le_of_not_lt hlate)

/-- **A timeline is one of the runs.**  Whatever the cluster answers and the logs hold, there is a
run in which just that is seen which the timeline records, in the same order and at the same times;
and when the timeline has a result, the watch of the run has failed with it. -/
theorem run_replayed (set : Setting) (until_ : Nat) :
    ∃ trace s, System.Run trace s ∧
      trace.records = (run set until_ 0 0 0 {}).2.records ∧
      s.watch = (run set until_ 0 0 0 {}).2.watch ∧
      ∀ result, (run set until_ 0 0 0 {}).1 = some result →
        ∃ e, result = .error e ∧ s.phase = .failed e := by
  obtain ⟨trace, s, phase, last, h, hresult⟩ :=
    replays_run set until_ 0 0 0 {} .start (Nat.le_refl 0) (Nat.zero_le until_)
  refine ⟨trace, s, h.run, h.records, h.watch, fun result hr => ?_⟩
  rw [h.phase]
  exact hresult result hr

end Timeline

end Rollout.Kubernetes
