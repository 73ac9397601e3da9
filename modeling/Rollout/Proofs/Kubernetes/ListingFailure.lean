/-
What a listing that fails does to a watch.

* `System.Takes` is a step in which the loop takes the answer to a listing, and `System.History` a
  run with the answers to its listings; `System.run_iff_history`: every run has such a history;
* `Standing` says how far a watch has come, and `System.History.standing` keeps it over a run: the
  watch has failed just when the first answer was a failure;
* `Watch.Reaped` says what noticing tasks does, task by task (`Watch.Reaped.append`), and
  `System.Step.reaped_of_tick` that a poll does nothing else before it asks for the pods;
* `System.Run.isSome_overAt_iff`: the tasks noticed are the live followers at the end of their logs;
* `System.Run.fails_first` draws the conclusion.

Design notes: a failure says nothing of the pods, so the trace does not show it, and the answers are
kept beside the trace.  The tasks that are over are noticed before the pods are asked for, whatever
the answer is then.
-/
import Rollout.Proofs.Kubernetes.Coverage
import Rollout.Proofs.Kubernetes.LogWindow

namespace Rollout.Kubernetes

/-! ### Answers to listings -/

/-- The answer to a listing: the containers of the running pods, or why there are none. -/
abbrev Answer := Except ClusterError (List ContainerKey)

namespace System

/-- The system when a listing has failed. -/
def afterFailure (s : System) (now : Nat) (e : ClusterError) : System :=
  match s.watch.listingFailed e with
  | .ok w => { s with watch := w, phase := .tick, clock := now, latest := now }
  | .error f => { s with phase := .failed f, clock := now, latest := now }

/-- The loop takes the answer to a listing. -/
inductive Takes (s : System) (now : Nat) : Answer → List Seen → System → Prop where
  | pods {current : List ContainerKey} {seen : List Seen} {s' : System}
      (hs : s.Step now (.listing current :: seen) s') :
      Takes s now (.ok current) (.listing current :: seen) s'
  | failure (e : ClusterError) (hp : s.phase = .answer) (ht : s.latest ≤ now) :
      Takes s now (.error e) [] (s.afterFailure now e)

/-- A run with the answers to its listings, in order. -/
inductive History : List Answer → Trace → System → Prop where
  | start : History [] [] {}
  | takes {answers : List Answer} {trace : Trace} {s s' : System} {now : Nat} {answer : Answer}
      {seen : List Seen} (h : History answers trace s) (hs : s.Takes now answer seen s') :
      History (answers ++ [answer]) (trace ++ seen.map (now, ·)) s'
  | goesOn {answers : List Answer} {trace : Trace} {s s' : System} {now : Nat}
      {seen : List Seen} (h : History answers trace s) (hs : s.Step now seen s')
      (hp : s.phase = .answer → s'.phase = .answer) :
      History answers (trace ++ seen.map (now, ·)) s'

variable {s s₁ s₂ s' : System} {now later : Nat} {seen : List Seen} {answer : Answer}
  {answers : List Answer} {trace : Trace}

theorem Takes.step (h : s.Takes now answer seen s') : s.Step now seen s' := by
  cases h with
  | pods hs => exact hs
  | failure e hp ht =>
    unfold afterFailure
    split
    · next w hw => exact .missed e w hp ht hw
    · next f hw => exact .fails e f hp ht hw

/-- The loop stops waiting for the pods with an answer only. -/
theorem Step.exists_takes (hs : s.Step now seen s') (hp : s.phase = .answer)
    (hp' : s'.phase ≠ .answer) : ∃ answer, s.Takes now answer seen s' := by
  cases hs with
  | poll done htick ht hd => exact absurd rfl hp'
  | listed pods current accept exits hp ht hc he =>
    exact ⟨_, .pods (.listed pods _ _ _ hp ht hc he)⟩
  | missed e w hp ht hw =>
    have htakes := Takes.failure e hp ht
    rw [afterFailure, hw] at htakes
    exact ⟨_, htakes⟩
  | fails e f hp ht hw =>
    have htakes := Takes.failure e hp ht
    rw [afterFailure, hw] at htakes
    exact ⟨_, htakes⟩
  | begins w hw ha hb hl ht => exact absurd hp hp'
  | follows w e hw ha hb he hl ht => exact absurd hp hp'
  | cancels w hw ha hn hl ht => exact absurd hp hp'

theorem run_iff_history : System.Run trace s ↔ ∃ answers, History answers trace s := by
  constructor
  · intro h
    induction h with
    | start => exact ⟨[], .start⟩
    | @step trace s s' now seen _ hs ih =>
      obtain ⟨answers, h⟩ := ih
      by_cases hp : s.phase = .answer → s'.phase = .answer
      · exact ⟨answers, h.goesOn hs hp⟩
      · push Not at hp
        obtain ⟨answer, htakes⟩ := hs.exists_takes hp.1 hp.2
        exact ⟨_, h.takes htakes⟩
  · rintro ⟨answers, h⟩
    induction h with
    | start => exact .start
    | takes _ hs ih => exact ih.step hs.step
    | goesOn _ hs _ ih => exact ih.step hs

end System

/-! ### The first listing -/

theorem Watch.first_reap (w : Watch) (done : List (Nat × Nat)) :
    (w.reap done).1.first = w.first := by
  induction done generalizing w with
  | nil => rfl
  | cons p done ih =>
    have hone : (w.reapOne p.1 p.2).1.first = w.first := by
      unfold reapOne
      split <;> rfl
    exact (ih _).trans hone

theorem Watch.first_offerAll (w : Watch) (accept : ContainerKey → Bool) (now : Nat)
    (current : List ContainerKey) : (w.offerAll accept now current).1.first = w.first := by
  induction current generalizing w with
  | nil => rfl
  | cons key rest ih =>
    have hone : (w.offer accept now key).1.first = w.first := by
      unfold offer
      split
      · rfl
      · split <;> rfl
    exact (ih _).trans hone

/-- How far a watch has come: no listing was answered, the first has failed and the watch with it,
or the first has shown the pods and the watch goes on. -/
inductive Standing (s : System) (trace : Trace) : List Answer → Prop where
  | fresh (first : s.watch.first = true) (phase : ∀ e, s.phase ≠ .failed e)
      (workers : s.workers = []) (unseen : trace = []) : Standing s trace []
  | failed (e : ClusterError) (phase : s.phase = .failed e) (workers : s.workers = [])
      (unseen : trace = []) : Standing s trace [.error e]
  | watching (current : List ContainerKey) (more : List Answer) (first : s.watch.first = false)
      (phase : ∀ e, s.phase ≠ .failed e) : Standing s trace (.ok current :: more)

namespace Standing

variable {s s' : System} {now : Nat} {seen : List Seen} {answer : Answer} {answers : List Answer}
  {trace : Trace}

/-- A watch that has failed takes no step any more, and neither do its followers. -/
theorem not_step {e : ClusterError} (hp : s.phase = .failed e) (hw : s.workers = []) :
    ¬ s.Step now seen s' := by
  intro hs
  cases hs with
  | poll done htick ht hd => exact nomatch hp.symm.trans htick
  | listed pods current accept exits hanswer ht hc he => exact nomatch hp.symm.trans hanswer
  | missed e w hanswer ht h => exact nomatch hp.symm.trans hanswer
  | fails e f hanswer ht h => exact nomatch hp.symm.trans hanswer
  | begins w hmem ha hb hl ht => simp [hw] at hmem
  | follows w e hmem ha hb he hl ht => simp [hw] at hmem
  | cancels w hmem ha hn hl ht => simp [hw] at hmem

/-- A listing that shows the pods is not the first one any more. -/
theorem of_listing {current : List ContainerKey}
    (hs : s.Step now (.listing current :: seen) s') :
    s'.watch.first = false ∧ s'.phase = .tick := by
  generalize hall : Seen.listing current :: seen = all at hs
  cases hs with
  | listed pods current' accept exits hp ht hc he =>
    exact ⟨Watch.first_offerAll _ accept now _, rfl⟩
  | poll done hp ht hd =>
    have hm : Seen.listing current ∈ (s.watch.reap done).2.map Report.seen :=
      hall ▸ List.mem_cons_self
    obtain ⟨r, hr, hseen⟩ := List.mem_map.mp hm
    obtain ⟨k, rfl⟩ := Watch.exits_reap done r hr
    cases hseen
  | missed e w hp ht hw => cases hall
  | fails e f hp ht hw => cases hall
  | begins w hw ha hb hl ht => cases hall
  | follows w e hw ha hb he hl ht => cases hall
  | cancels w hw ha hn hl ht => cases hall

theorem takes (h : Standing s trace answers) (hs : s.Takes now answer seen s') :
    Standing s' (trace ++ seen.map (now, ·)) (answers ++ [answer]) := by
  cases h with
  | failed e phase workers unseen => exact absurd hs.step (not_step phase workers)
  | fresh first phase workers unseen =>
    cases hs with
    | pods hs =>
      obtain ⟨hfirst, hphase⟩ := of_listing hs
      exact .watching _ _ hfirst (by simp [hphase])
    | failure e hp ht =>
      have hfails : s.watch.listingFailed e = .error e := if_pos first
      rw [System.afterFailure, hfails]
      exact .failed e rfl workers (by simp [unseen])
  | watching current more first phase =>
    cases hs with
    | pods hs =>
      obtain ⟨hfirst, hphase⟩ := of_listing hs
      exact .watching _ _ hfirst (by simp [hphase])
    | failure e hp ht =>
      have hgoesOn : s.watch.listingFailed e = .ok s.watch := if_neg (by simp [first])
      rw [System.afterFailure, hgoesOn]
      exact .watching _ _ first nofun

theorem goesOn (h : Standing s trace answers) (hs : s.Step now seen s')
    (hp : s.phase = .answer → s'.phase = .answer) :
    Standing s' (trace ++ seen.map (now, ·)) answers := by
  cases h with
  | failed e phase workers unseen => exact absurd hs (not_step phase workers)
  | fresh first phase workers unseen =>
    -- there is no task yet, so that the loop can only ask for the pods
    cases hs with
    | poll done htick ht hd =>
      obtain rfl : done = [] := by
        rw [System.ended, workers] at hd
        exact hd.eq_nil
      exact .fresh first (by simp) (by simp [workers]) (by simp [unseen, Watch.reap])
    | listed pods current accept exits hanswer ht hc he => cases hp hanswer
    | missed e w hanswer ht hw => cases hp hanswer
    | fails e f hanswer ht hw => cases hp hanswer
    | begins w hmem ha hb hl ht => simp [workers] at hmem
    | follows w e hmem ha hb he hl ht => simp [workers] at hmem
    | cancels w hmem ha hn hl ht => simp [workers] at hmem
  | watching current more first phase =>
    cases hs with
    | poll done htick ht hd => exact .watching _ _ ((s.watch.first_reap done).trans first) (by simp)
    | listed pods current accept exits hanswer ht hc he => cases hp hanswer
    | missed e w hanswer ht hw => cases hp hanswer
    | fails e f hanswer ht hw => cases hp hanswer
    | begins w hmem ha hb hl ht => exact .watching _ _ first phase
    | follows w e hmem ha hb he hl ht => exact .watching _ _ first phase
    | cancels w hmem ha hn hl ht => exact .watching _ _ first phase

/-- A watch that was answered and has not failed is past its first listing. -/
theorem first_eq_false (h : Standing s trace answers) (hne : answers ≠ [])
    (hp : ∀ e, s.phase ≠ .failed e) : s.watch.first = false := by
  cases h with
  | fresh first phase workers unseen => exact absurd rfl hne
  | failed e phase workers unseen => exact absurd phase (hp e)
  | watching current more first phase => exact first

end Standing

theorem System.History.standing {answers : List Answer} {trace : Trace} {s : System}
    (h : System.History answers trace s) : Standing s trace answers := by
  induction h with
  | start => exact .fresh rfl nofun rfl rfl
  | takes _ hs ih => exact ih.takes hs
  | goesOn _ hs hp ih => exact ih.goesOn hs hp

/-! ### Noticing tasks -/

namespace Watch

/-- When the live follower of a container ended, if it is one of these tasks. -/
def overAt (w : Watch) (done : List (Nat × Nat)) (key : ContainerKey) : Option Nat :=
  (w.followers.handles.lookup key).bind fun id => done.lookup id

/-- The live followers among tasks that are over lose their handles, leave their ends as marks and
exit, and nothing else changes. -/
structure Reaped (w : Watch) (done : List (Nat × Nat)) (w' : Watch) (seen : List Seen) :
    Prop where
  handles : ∀ key, w'.followers.handles.lookup key
    = if (w.overAt done key).isSome then none else w.followers.handles.lookup key
  marks : ∀ key, w'.followers.ended.lookup key
    = (w.overAt done key).or (w.followers.ended.lookup key)
  exits : ∀ key, seen.count (.call key .exit) = if (w.overAt done key).isSome then 1 else 0
  skipped : w'.skipped = w.skipped

variable {w w₁ w₂ : Watch} {done : List (Nat × Nat)} {id at_ : Nat}

theorem overAt_nil (w : Watch) (key : ContainerKey) : w.overAt [] key = none := by
  rw [overAt]
  cases w.followers.handles.lookup key <;> rfl

theorem overAt_cons (w : Watch) (id at_ : Nat) (done : List (Nat × Nat)) (key : ContainerKey) :
    w.overAt ((id, at_) :: done) key = (w.overAt [(id, at_)] key).or (w.overAt done key) := by
  unfold overAt
  cases w.followers.handles.lookup key with
  | none => rfl
  | some i =>
    simp only [Option.bind_some, List.lookup_cons, List.lookup_nil]
    cases i == id <;> rfl

theorem overAt_perm {done' : List (Nat × Nat)} (h : done.Perm done')
    (hn : (done.map Prod.fst).Nodup) : w.overAt done = w.overAt done' := by
  funext key
  refine Option.bind_congr fun id _ => Option.ext fun t => ?_
  rw [lookup_eq_some_iff_mem hn, lookup_eq_some_iff_mem ((h.map Prod.fst).nodup_iff.mp hn),
    h.mem_iff]

/-- The order in which tasks are noticed does not matter. -/
theorem Reaped.perm {done' : List (Nat × Nat)} {seen : List Seen} (h : w.Reaped done w₁ seen)
    (hd : done.Perm done') (hn : (done.map Prod.fst).Nodup) : w.Reaped done' w₁ seen := by
  have hover := overAt_perm (w := w) hd hn
  exact ⟨hover ▸ h.handles, hover ▸ h.marks, hover ▸ h.exits, h.skipped⟩

/-- Tasks are noticed one after another. -/
theorem Reaped.append {seen more : List Seen} (h : w.Reaped [(id, at_)] w₁ seen)
    (h' : w₁.Reaped done w₂ more) : w.Reaped ((id, at_) :: done) w₂ (seen ++ more) := by
  -- a container that has lost its handle is not over again
  have hover : ∀ key, w₁.overAt done key
      = if (w.overAt [(id, at_)] key).isSome then none else w.overAt done key := by
    intro key
    rw [overAt, h.handles]
    split <;> rfl
  refine ⟨fun key => ?_, fun key => ?_, fun key => ?_, h'.skipped.trans h.skipped⟩
  · rw [h'.handles, hover, h.handles, overAt_cons w id at_ done]
    cases w.overAt [(id, at_)] key <;> rfl
  · rw [h'.marks, hover, h.marks, overAt_cons w id at_ done]
    cases w.overAt [(id, at_)] key <;> rfl
  · rw [List.count_append, h'.exits, hover, h.exits, overAt_cons w id at_ done]
    cases w.overAt [(id, at_)] key with
    | none => exact Nat.zero_add _
    | some t => rfl

end Watch

namespace Coherent

variable {w : Watch} {ws : List Worker}

theorem overAt_singleton (h : Coherent w ws) {v : Worker} (hv : v ∈ ws) (at_ : Nat)
    (key : ContainerKey) :
    w.overAt [(v.id, at_)] key = if key = v.key ∧ v.aborted = false then some at_ else none := by
  have hlive := h.live_iff v hv
  unfold Watch.overAt
  split
  · next hk =>
    rw [hk.1, hlive.mp hk.2]
    simp
  · next hk =>
    cases hl : w.followers.handles.lookup key with
    | none => rfl
    | some i =>
      -- another number, or else the handle would be that of this task
      have hi : i ≠ v.id := by
        rintro rfl
        obtain ⟨u, hu, rfl, hid⟩ := h.exists_worker key v.id hl
        obtain rfl := eq_of_id_eq h.nodup_ids hu hv hid
        exact hk ⟨rfl, hlive.mpr hl⟩
      simp [List.lookup_cons, beq_eq_false_iff_ne.mpr hi]

theorem reaped_one (h : Coherent w ws) {v : Worker} (hv : v ∈ ws) (at_ : Nat) :
    w.Reaped [(v.id, at_)] (w.reapOne v.id at_).1 ((w.reapOne v.id at_).2.map Report.seen) where
  handles key := by
    rw [h.lookup_handles_reapOne hv, h.overAt_singleton hv]
    split <;> rfl
  marks key := by
    rw [h.reapOne_eq hv, h.overAt_singleton hv]
    cases v.aborted with
    | true => simp
    | false =>
      simp only [Bool.false_eq_true, if_false, and_true]
      rw [Marked.lookup_markEnded]
      split <;> rfl
  exits key := by
    rw [h.reports_reapOne hv, h.overAt_singleton hv]
    cases v.aborted with
    | true => simp
    | false => by_cases hk : key = v.key <;> simp [Report.seen, hk, eq_comm]
  skipped := (rest_reapOne w v.id at_).1

theorem reaped (h : Coherent w ws) (done : List (Nat × Nat)) (hn : (done.map Prod.fst).Nodup)
    (hd : ∀ p ∈ done, ∃ v ∈ ws, v.id = p.1) :
    w.Reaped done (w.reap done).1 ((w.reap done).2.map Report.seen) := by
  induction done generalizing w ws with
  | nil =>
    refine ⟨fun key => ?_, fun key => ?_, fun key => ?_, rfl⟩ <;>
      simp [Watch.overAt_nil, Watch.reap]
  | cons p done ih =>
    obtain ⟨i, t⟩ := p
    rw [List.map_cons, List.nodup_cons] at hn
    obtain ⟨v, hv, rfl⟩ := hd (i, t) List.mem_cons_self
    have hrest := ih (h.reapOne hv t) hn.2 fun q hq => by
      obtain ⟨u, hu, hid⟩ := hd q (List.mem_cons_of_mem _ hq)
      refine ⟨u, List.mem_filter.mpr ⟨hu, ?_⟩, hid⟩
      rw [bne_iff_ne, hid]
      exact fun he => hn.1 (List.mem_map.mpr ⟨q, hq, he⟩)
    have happend := (h.reaped_one hv t).append hrest
    rw [← List.map_append] at happend
    exact happend

end Coherent

/-! ### Followers that are over -/

/-- A task that has come to its end is over. -/
theorem System.Step.endedAt_of_ended {s s' : System} {now : Nat} {seen : List Seen}
    (hs : s.Step now seen s')
    (h : ∀ v ∈ s.workers, v.state = .ended → v.endedAt.isSome = true) :
    ∀ v ∈ s'.workers, v.state = .ended → v.endedAt.isSome = true := by
  -- a step of one task leaves the others as they are
  have hset : ∀ w : Worker, (w.state = .ended → w.endedAt.isSome = true) →
      ∀ v ∈ (s.setWorker w).workers, v.state = .ended → v.endedAt.isSome = true := by
    intro w hw v hv
    obtain ⟨u, hu, rfl⟩ := List.mem_map.mp hv
    split
    · exact hw
    · exact h u hu
  cases hs with
  | poll done hp ht hd => exact fun v hv => h v (List.mem_filter.mp hv).1
  | listed pods current accept exits hp ht hc he =>
    intro v hv hstate
    rcases List.mem_append.mp hv with hv | hv
    · obtain ⟨u, hu, rfl⟩ := List.mem_map.mp hv
      exact h u hu hstate
    · obtain ⟨st, -, rfl⟩ := List.mem_map.mp hv
      exact nomatch hstate
  | missed e w hp ht hw => exact h
  | fails e f hp ht hw => exact h
  | begins w hw ha hb hl ht => exact hset (w.begin now) (h w hw)
  | follows w e hw ha hb he hl ht =>
    refine hset (w.meet now e) fun hstate => ?_
    have hend : (w.meet now e).endedAt = some now := if_pos hstate
    rw [hend]
    rfl
  | cancels w hw ha hn hl ht => exact hset (w.cancel now) fun _ => rfl

theorem System.Run.endedAt_of_ended {trace : Trace} {s : System} (h : System.Run trace s) :
    ∀ v ∈ s.workers, v.state = .ended → v.endedAt.isSome = true := by
  induction h with
  | start => exact fun v hv => absurd hv List.not_mem_nil
  | step _ hs ih => exact hs.endedAt_of_ended ih

namespace System

variable {s s₁ s₂ s' : System} {now later : Nat} {reaped waited seen : List Seen} {trace : Trace}
  {key : ContainerKey}

theorem lookup_ended_eq_some_iff (hn : (s.workers.map Worker.id).Nodup) {id t : Nat} :
    s.ended.lookup id = some t ↔ ∃ v ∈ s.workers, v.id = id ∧ v.endedAt = some t := by
  have hnodup : (s.ended.map Prod.fst).Nodup := (s.noticed hn (.refl _)).1
  rw [lookup_eq_some_iff_mem hnodup]
  simp [ended, and_comm]

/-- A container is over when it has a handle and the task of that number has come to its end. -/
theorem Run.overAt_eq_some_iff (h : System.Run trace s) {t : Nat} :
    s.watch.overAt s.ended key = some t ↔ ∃ v ∈ s.workers, v.key = key ∧
      s.watch.followers.handles.lookup key = some v.id ∧ v.state = .ended ∧
      v.endedAt = some t := by
  have hc := h.accounted.coherent
  rw [Watch.overAt, Option.bind_eq_some_iff]
  constructor
  · rintro ⟨id, hl, hended⟩
    obtain ⟨v, hv, rfl, ht⟩ := (lookup_ended_eq_some_iff hc.nodup_ids).mp hended
    obtain ⟨u, hu, rfl, hid⟩ := hc.exists_worker key v.id hl
    obtain rfl := eq_of_id_eq hc.nodup_ids hu hv hid
    -- a task that was not stopped is over only when it is at its end
    have hfits := (h.marked u.key).live u hu rfl ((hc.live_iff u hu).mpr hl)
    exact ⟨u, hu, rfl, hl, (hfits.finished t ht).1, ht⟩
  · rintro ⟨v, hv, -, hl, -, ht⟩
    exact ⟨v.id, hl, (lookup_ended_eq_some_iff hc.nodup_ids).mpr ⟨v, hv, rfl, ht⟩⟩

/-- The containers that are over are those whose live follower is at the end of its log. -/
theorem Run.isSome_overAt_iff (h : System.Run trace s) :
    (s.watch.overAt s.ended key).isSome = true ↔ ∃ v ∈ s.workers, v.key = key ∧
      s.watch.followers.handles.lookup key = some v.id ∧ v.state = .ended := by
  rw [Option.isSome_iff_exists]
  constructor
  · rintro ⟨t, ht⟩
    obtain ⟨v, hv, hkey, hl, hstate, -⟩ := h.overAt_eq_some_iff.mp ht
    exact ⟨v, hv, hkey, hl, hstate⟩
  · rintro ⟨v, hv, hkey, hl, hstate⟩
    obtain ⟨t, ht⟩ := Option.isSome_iff_exists.mp (h.endedAt_of_ended v hv hstate)
    exact ⟨t, h.overAt_eq_some_iff.mpr ⟨v, hv, hkey, hl, hstate, ht⟩⟩

/-! ### A poll without a listing -/

/-- The loop notices the tasks that are over when it comes to a tick. -/
theorem Step.reaped_of_tick (hs : s.Step now reaped s₁) (hc : Coherent s.watch s.workers)
    (hp : s.phase = .tick) (hp₁ : s₁.phase = .answer) :
    s.watch.Reaped s.ended s₁.watch reaped := by
  cases hs with
  | poll done htick ht hd =>
    obtain ⟨hn, hmem, -⟩ := s.noticed hc.nodup_ids hd
    refine (hc.reaped done hn fun p hp => ?_).perm hd hn
    obtain ⟨v, hv, hid, -⟩ := hmem p hp
    exact ⟨v, hv, hid⟩
  | listed pods current accept exits hanswer ht hcur he => cases hp₁
  | missed e w hanswer ht hw => cases hp₁
  | fails e f hanswer ht hw => cases hp₁
  | begins w hw ha hb hl ht => exact nomatch hp.symm.trans hp₁
  | follows w e hw ha hb he hl ht => exact nomatch hp.symm.trans hp₁
  | cancels w hw ha hn hl ht => exact nomatch hp.symm.trans hp₁

/-- No container exits while the loop waits for the pods. -/
theorem Step.exit_notMem_of_answer (hs : s.Step now seen s') (hp : s.phase = .answer)
    (hp' : s'.phase = .answer) (key : ContainerKey) : .call key .exit ∉ seen := by
  cases hs with
  | poll done htick ht hd => exact nomatch hp.symm.trans htick
  | listed pods current accept exits hanswer ht hc he => cases hp'
  | missed e w hanswer ht hw => cases hp'
  | fails e f hanswer ht hw => cases hp'
  | begins w hw ha hb hl ht => simp
  | follows w e hw ha hb he hl ht =>
    intro hm
    obtain ⟨r, -, hr⟩ := List.mem_map.mp ((List.mem_cons.mp hm).resolve_left nofun)
    cases r <;> simp [FollowerReport.callback] at hr
  | cancels w hw ha hn hl ht => simp

theorem Waits.exit_notMem (hw : s.Waits waited s') (hp : s.phase = .answer)
    (key : ContainerKey) : .call key .exit ∉ waited := by
  induction hw with
  | start => exact List.not_mem_nil
  | step hw hs hp' ih =>
    have hphase := (hw.quiet hp).1
    intro hm
    exact (List.mem_append.mp hm).elim ih (hs.exit_notMem_of_answer hphase hp' key)

end System

/-- **Only the first listing can fail a watch.**  Every run has a history of the answers to its
listings, and in every run the watch has failed just when the first of them was a failure, and with
that one; then it was the only answer, nothing was called back and nothing more is done.  When a
later listing fails, the watch goes on: no container was offered, those whose live followers had
come to the end of their logs when the poll began have exited, and nothing else has changed of what
is followed, refused and marked. -/
theorem System.Run.fails_first {trace : Trace} {s : System} (h : System.Run trace s) :
    (∃ answers, System.History answers trace s) ∧
      (∀ answers, System.History answers trace s →
        (∀ e, s.phase = .failed e ↔ answers.head? = some (.error e)) ∧
        (∀ e, s.phase = .failed e →
          answers = [.error e] ∧ trace = [] ∧ ∀ now seen s', ¬ s.Step now seen s') ∧
        ∀ now later e reaped waited seen s₁ s₂ s', answers ≠ [] → s.phase = .tick →
          s.Step now reaped s₁ → s₁.phase = .answer → s₁.Waits waited s₂ →
          s₂.Takes later (.error e) seen s' →
            s'.phase = .tick ∧ (∀ key, entries key (reaped ++ waited ++ seen) = []) ∧
              s.watch.Reaped s.ended s'.watch (reaped ++ waited ++ seen)) ∧
      ∀ key,
        ((s.watch.overAt s.ended key).isSome = true ↔ ∃ v ∈ s.workers, v.key = key ∧
          s.watch.followers.handles.lookup key = some v.id ∧ v.state = .ended) ∧
        ∀ t, s.watch.overAt s.ended key = some t → ∃ v ∈ s.workers, v.key = key ∧
          s.watch.followers.handles.lookup key = some v.id ∧ v.endedAt = some t := by
  refine ⟨System.run_iff_history.mp h, fun answers hhistory => ⟨?_, ?_, ?_⟩,
    fun key => ⟨h.isSome_overAt_iff, fun t ht => ?_⟩⟩
  · intro e
    cases hhistory.standing with
    | fresh first phase workers unseen => exact ⟨fun hp => absurd hp (phase e), nofun⟩
    | failed e' phase workers unseen => simp [phase, eq_comm]
    | watching current more first phase => exact ⟨fun hp => absurd hp (phase e), nofun⟩
  · intro e hp
    cases hhistory.standing with
    | fresh first phase workers unseen => exact absurd hp (phase e)
    | failed e' phase workers unseen =>
      obtain rfl : e' = e := by simpa using phase.symm.trans hp
      exact ⟨rfl, unseen, fun now seen s' => Standing.not_step phase workers⟩
    | watching current more first phase => exact absurd hp (phase e)
  · intro now later e reaped waited seen s₁ s₂ s' hlater hp hpoll hp₁ hw htakes
    obtain ⟨-, hwatch, hwaited⟩ := hw.quiet hp₁
    have hfirst : s₁.watch.first = false :=
      (hhistory.standing.goesOn hpoll fun _ => hp₁).first_eq_false hlater (by simp [hp₁])
    have hnoExits : ∀ key, waited.count (.call key .exit) = 0 := fun key =>
      List.count_eq_zero.mpr (hw.exit_notMem hp₁ key)
    have hreaped := hpoll.reaped_of_tick h.accounted.coherent hp hp₁
    cases htakes with
    | failure e hanswer ht =>
      -- the watch is the one that the poll has left
      have hgoesOn : s₂.watch.listingFailed e = .ok s₁.watch := by
        rw [hwatch]
        exact if_neg (by simp [hfirst])
      rw [System.afterFailure, hgoesOn, List.append_nil]
      refine ⟨rfl, fun key => ?_, hreaped.handles, hreaped.marks, fun key => ?_, hreaped.skipped⟩
      · rw [entries_append, hpoll.entries_of_answer hp₁, hwaited, List.append_nil]
      · rw [List.count_append, hreaped.exits, hnoExits, Nat.add_zero]
  · obtain ⟨v, hv, hkey, hl, -, hended⟩ := h.overAt_eq_some_iff.mp ht
    exact ⟨v, hv, hkey, hl, hended⟩

/-- The first answer fails one watch; in the other a follower that had found no log exits with a
later failure, and the other container is followed on. -/
theorem System.Run.fails_first_laterListing :
    (∃ s, System.Run [] s ∧ s.phase = .failed (.config "no answer") ∧
      ∀ now seen s', ¬ s.Step now seen s') ∧
    ∃ (answers : List Answer) (trace : Trace) (s s₁ s' : System),
      System.History answers trace s ∧ answers ≠ [] ∧ s.Step 4 [.call ⟨"web", "app"⟩ .exit] s₁ ∧
      s₁.Takes 5 (.error (.config "no answer")) [] s' ∧ s'.phase = .tick ∧
      s.watch.Reaped s.ended s'.watch [.call ⟨"web", "app"⟩ .exit] ∧
      s.watch.followed = [⟨"web", "proxy"⟩, ⟨"web", "app"⟩] ∧
      s'.watch.followed = [⟨"web", "proxy"⟩] ∧
      s'.watch.followers.ended = [(⟨"web", "app"⟩, 2)] := by
  have h0 := System.History.start
  have h1 := h0.goesOn (@System.Step.poll _ 0 [] rfl (Nat.le_refl 0) (.refl _)) nofun
  refine ⟨?_, ?_⟩
  · have hfailed := h1.takes (.failure (.config "no answer") rfl (Nat.zero_le 1))
    have hrun := System.run_iff_history.mpr ⟨_, hfailed⟩
    exact ⟨_, hrun, rfl, ((hrun.fails_first.2.1 _ hfailed).2.1 _ rfl).2.2⟩
  · have h2 := h1.takes (.pods (@System.Step.listed _ 1 [⟨"web", ["app", "proxy"], none⟩]
      [⟨"web", "app"⟩, ⟨"web", "proxy"⟩] (fun _ => true) [] rfl (Nat.zero_le 1)
      (.of_eq rfl) (.refl _)))
    have h3 := h2.goesOn (@System.Step.begins _ 1
      ⟨0, ⟨"web", "app"⟩, none, false, .opening, false, 1, none⟩
      (by decide) rfl rfl (Nat.le_refl 1) (Nat.le_refl 1)) nofun
    have h4 := h3.goesOn (@System.Step.follows _ 2
      ⟨0, ⟨"web", "app"⟩, none, true, .opening, false, 1, none⟩
      (.openFailed (.config "no log")) (by decide) rfl rfl rfl (by decide) (by decide)) nofun
    obtain ⟨hphase, -, hreaped⟩ :=
      ((System.run_iff_history.mpr ⟨_, h4⟩).fails_first.2.1 _ h4).2.2 4 5 _ _ [] _ _ _ _
        (by decide) rfl (.poll [(0, 2)] rfl (by decide) (.of_eq rfl)) rfl .start
        (.failure (.config "no answer") rfl (Nat.le_succ 4))
    exact ⟨_, _, _, _, _, h4, by decide, .poll [(0, 2)] rfl (by decide) (.of_eq rfl),
      .failure _ rfl (Nat.le_succ 4), hphase, hreaped, by decide, by decide, by decide⟩

end Rollout.Kubernetes
