/-
How far back a follower asks for its log, over a whole run of a watch.

* `Past` is what the trace says of the logs of one container since a listing was last without it:
  the attempts to follow a log that are over, and the log that is open;
* `Marked` ties it to the end marks of the watch and to the follower's task, and each part of a
  step keeps it (`Marked.reapOne`, `Marked.retain`, `Marked.offer`, `Marked.follows`);
* `System.Step.marked` and `System.Run.marked` keep it over the steps and over a whole run;
* `System.Run.asks_since` draws the conclusion: the window reaches back to the end of the last
  attempt, and so to the end of the last log that was open when that attempt opened one.

Design notes: an attempt that could not open a log sets the end mark of the container just like one
that read it, so what was written between the two is not asked for again.  The window is counted
from the time the follower was started, which is that of its entry, and the follower may ask later.
-/
import Rollout.Kubernetes.Client
import Rollout.Proofs.Kubernetes.Callbacks

namespace Rollout.Kubernetes

/-! ### What the trace says -/

/-- One attempt to follow a log. -/
structure Attempt where
  /-- When the log was opened, if it was. -/
  opened : Option Nat
  ended : Nat
  deriving DecidableEq, Repr

/-- The logs of a container since a listing was last without it. -/
structure Past where
  /-- When the last follower was started. -/
  started : Option Nat := none
  /-- The attempts that are over. -/
  attempts : List Attempt := []
  /-- When the log that is being read was opened. -/
  reading : Option Nat := none
  deriving DecidableEq, Repr

namespace Past

/-- When the last attempt ended. -/
def lastEnd (p : Past) : Option Nat := p.attempts.getLast?.map Attempt.ended

/-- When the log that was opened last ended. -/
def lastLogEnd (p : Past) : Option Nat :=
  (p.attempts.filter (·.opened.isSome)).getLast?.map Attempt.ended

/-- The last attempt, if there is one, opened a log. -/
def LastOpened (p : Past) : Prop := ∀ a ∈ p.attempts.getLast?, a.opened.isSome

instance (p : Past) : Decidable p.LastOpened :=
  inferInstanceAs (Decidable (∀ a ∈ p.attempts.getLast?, a.opened.isSome))

/-- What a follower of the container meets. -/
def meet (now : Nat) (p : Past) : LogEvent → Past
  | .opened => { p with reading := some now }
  | .openFailed _ => { p with attempts := p.attempts ++ [⟨none, now⟩] }
  | .line _ => p
  | .failed _ | .finished =>
    { p with attempts := p.attempts ++ [⟨p.reading, now⟩], reading := none }

/-- Takes one thing that is seen; a listing without the container ends its past. -/
def see (key : ContainerKey) (now : Nat) (p : Past) : Seen → Past
  | .listing current => if current.contains key then p else {}
  | .call k (.enter true) => if k = key then { p with started := some now } else p
  | .call .. | .asks .. => p
  | .meets k e => if k = key then p.meet now e else p

end Past

/-- The past of a container at the end of a trace. -/
def Trace.past (trace : Trace) (key : ContainerKey) : Past :=
  trace.foldl (fun p x => p.see key x.1 x.2) {}

/-- Takes some things that are seen at one time. -/
def Past.seeAll (key : ContainerKey) (now : Nat) (p : Past) (seen : List Seen) : Past :=
  seen.foldl (fun p x => p.see key now x) p

theorem Trace.past_append (trace : Trace) (key : ContainerKey) (now : Nat) (seen : List Seen) :
    Trace.past (trace ++ seen.map (now, ·)) key = (trace.past key).seeAll key now seen := by
  rw [past, List.foldl_append, List.foldl_map]
  rfl

namespace Past

variable {key : ContainerKey} {now : Nat} {p : Past}

theorem seeAll_append (xs ys : List Seen) :
    p.seeAll key now (xs ++ ys) = (p.seeAll key now xs).seeAll key now ys :=
  List.foldl_append

theorem seeAll_eq_self {seen : List Seen} (h : ∀ x ∈ seen, p.see key now x = p) :
    p.seeAll key now seen = p := by
  induction seen with
  | nil => rfl
  | cons x seen ih =>
    rw [seeAll, List.foldl_cons, h x List.mem_cons_self]
    exact ih fun y hy => h y (List.mem_cons_of_mem x hy)

theorem seeAll_exits {reports : List Report} (h : ∀ r ∈ reports, ∃ k, r = .exit k) :
    p.seeAll key now (reports.map Report.seen) = p := by
  refine seeAll_eq_self fun x hx => ?_
  obtain ⟨r, hr, rfl⟩ := List.mem_map.mp hx
  obtain ⟨k, rfl⟩ := h r hr
  rfl

theorem seeAll_follower (k : ContainerKey) (e : LogEvent) (reports : List FollowerReport) :
    p.seeAll key now (.meets k e :: reports.map fun r => .call k r.callback)
      = if k = key then p.meet now e else p := by
  rw [seeAll, List.foldl_cons]
  refine seeAll_eq_self fun x hx => ?_
  obtain ⟨r, -, rfl⟩ := List.mem_map.mp hx
  cases r <;> rfl

end Past

/-! ### What the watch knows -/

/-- A task that was not stopped fits the past of its container. -/
structure Worker.Fits (v : Worker) (p : Past) : Prop where
  waiting : v.begun = false → v.state = .opening ∧ p.started = some v.clock ∧
    v.since = p.lastEnd.map (v.clock - ·)
  reading : p.reading.isSome ↔ v.state = .reading
  finished : ∀ t, v.endedAt = some t → v.state = .ended ∧ p.lastEnd = some t

/-- What the watch and its tasks know of a container fits its past. -/
structure Marked (w : Watch) (ws : List Worker) (key : ContainerKey) (p : Past) : Prop where
  free : w.followers.handles.lookup key = none →
    p.reading = none ∧ w.followers.ended.lookup key = p.lastEnd
  live : ∀ v ∈ ws, v.key = key → v.aborted = false → v.Fits p

/-- What a follower meets makes its task fit the new past. -/
theorem Worker.Fits.meet {v : Worker} {p : Past} (h : v.Fits p) (hb : v.begun = true)
    {e : LogEvent} (he : v.state.expects e) (now : Nat) : (v.meet now e).Fits (p.meet now e) := by
  have hnone : v.state ≠ .ended → v.endedAt = none := by
    intro hs
    by_contra hsome
    obtain ⟨t, ht⟩ := Option.ne_none_iff_exists'.mp hsome
    exact hs (h.finished t ht).1
  have hreading := h.reading
  obtain ⟨id, key, since, begun, state, aborted, clock, endedAt⟩ := v
  subst hb
  cases state <;> cases e <;> simp only [FollowerState.expects, Bool.false_eq_true] at he <;>
    refine ⟨by simp [Worker.meet], ?_, ?_⟩ <;>
    simp_all [Worker.meet, Past.meet, Past.lastEnd, FollowerState.step]

namespace Marked

variable {w w' : Watch} {ws ws' : List Worker} {key : ContainerKey} {p : Past}

theorem start (key : ContainerKey) : Marked {} [] key {} where
  free _ := ⟨rfl, rfl⟩
  live := by simp

/-- A step that is not about the container keeps what is known of it. -/
theorem frame (h : Marked w ws key p)
    (hl : w'.followers.handles.lookup key = w.followers.handles.lookup key)
    (he : w'.followers.ended.lookup key = w.followers.ended.lookup key)
    (hw : ∀ u ∈ ws', u.key = key → u.aborted = false → u ∈ ws) : Marked w' ws' key p where
  free hn := he ▸ h.free (hl ▸ hn)
  live u hu hkey hab := h.live u (hw u hu hkey hab) hkey hab

theorem lookup_markEnded (f : Followers) (k key : ContainerKey) (now : Nat) :
    (f.markEnded k now).ended.lookup key
      = if key = k then some now else f.ended.lookup key := by
  unfold Followers.markEnded
  rw [List.lookup_cons]
  by_cases hk : key = k
  · simp [hk]
  · rw [if_neg hk, beq_eq_false_iff_ne.mpr hk, lookup_filter_key (fun k' => k' != k)]
    simp [hk]

/-- A task that is noticed leaves its end as the mark of its container. -/
theorem reapOne (h : Marked w ws key p) (hc : Coherent w ws) {v : Worker} (hv : v ∈ ws)
    {t : Nat} (ht : v.endedAt = some t) :
    Marked (w.reapOne v.id t).1 (ws.filter (·.id != v.id)) key p := by
  have hmem : ∀ u ∈ ws.filter (·.id != v.id), u ∈ ws := fun u hu => (List.mem_filter.mp hu).1
  by_cases hexit : v.key = key ∧ v.aborted = false
  · obtain ⟨rfl, ha⟩ := hexit
    have hfits := h.live v hv rfl ha
    obtain ⟨hstate, hlast⟩ := hfits.finished t ht
    refine ⟨fun _ => ⟨?_, ?_⟩, fun u hu => h.live u (hmem u hu)⟩
    · rw [← Option.not_isSome_iff_eq_none, hfits.reading, hstate]
      simp
    · rw [hc.reapOne_eq hv, ha, hlast]
      simp [lookup_markEnded]
  · refine h.frame ?_ ?_ fun u hu _ _ => hmem u hu
    · rw [hc.lookup_handles_reapOne hv, if_neg fun hk => hexit ⟨hk.1.symm, hk.2⟩]
    · rw [hc.reapOne_eq hv]
      cases ha : v.aborted with
      | true => rfl
      | false =>
        have hk : key ≠ v.key := fun hk => hexit ⟨hk.symm, ha⟩
        simp [lookup_markEnded, hk, Followers.abort]

/-- A listing without the container ends its past, and the mark goes with it. -/
theorem retain (h : Marked w ws key p) (hc : Coherent w ws) (current : List ContainerKey) :
    Marked (w.retain current).1
      (ws.map (Worker.stopIn (w.followers.handles.filter fun p => !current.contains p.1))) key
      (if current.contains key then p else {}) := by
  have hlookup := Coherent.lookup_handles_retain w current key
  have hended : (w.retain current).1.followers.ended.lookup key
      = if current.contains key then w.followers.ended.lookup key else none :=
    lookup_filter_key (fun k => current.contains k) _ _
  cases hcur : current.contains key with
  | true =>
    rw [hcur, if_pos rfl] at hlookup hended
    refine h.frame hlookup hended ?_
    intro u hu _ hab
    obtain ⟨v, hv, rfl⟩ := List.mem_map.mp hu
    have hva : v.aborted = false := (Bool.or_eq_false_iff.mp hab).1
    -- a task that was not stopped is the same as before
    have hsame : Worker.stopIn (w.followers.handles.filter fun p => !current.contains p.1) v = v :=
      congrArg (fun b => { v with aborted := b }) (hab.trans hva.symm)
    rwa [hsame]
  | false =>
    rw [hcur, if_neg (by simp)] at hlookup hended
    refine ⟨fun _ => ⟨rfl, hended⟩, ?_⟩
    intro u hu hkey hab
    have hl := ((hc.retain current).live_iff u hu).mp hab
    rw [hkey, hlookup] at hl
    exact absurd hl (by simp)

/-- A container that is admitted is asked for what came after the end of its last attempt. -/
theorem offer (h : Marked w ws key p) (hc : Coherent w ws) (accept : ContainerKey → Bool)
    (now : Nat) (k : ContainerKey) :
    Marked (w.offer accept now k).1 (ws ++ (w.offer accept now k).2.2.map (Worker.ofStart now))
      key (p.seeAll key now ((w.offer accept now k).2.1.map Report.seen)) := by
  unfold Watch.offer
  split
  · simpa [Past.seeAll] using h
  next hknown =>
  have hfree : w.followers.handles.lookup k = none := by
    simp only [Followers.contains, Bool.or_eq_true, not_or, Bool.not_eq_true,
      Option.isSome_eq_false_iff, Option.isNone_iff_eq_none] at hknown
    exact hknown.1
  split
  · by_cases hk : k = key
    · -- the new task takes over the end mark, which is that of the past
      subst hk
      obtain ⟨hreading, hended⟩ := h.free hfree
      simp only [List.map_cons, List.map_nil, Report.seen, Past.seeAll, List.foldl_cons,
        List.foldl_nil, Past.see, if_true]
      refine ⟨?_, ?_⟩
      · intro hn
        rw [Followers.lookup_handles_insert] at hn
        simp at hn
      · intro v hv hkey hab
        rcases List.mem_append.mp hv with hv | hv
        · have hl := (hc.live_iff v hv).mp hab
          rw [hkey, hfree] at hl
          exact absurd hl (by simp)
        · obtain rfl := List.mem_singleton.mp hv
          refine ⟨fun _ => ⟨rfl, rfl, ?_⟩, by simp [hreading, Worker.ofStart],
            fun t ht => absurd ht (by simp [Worker.ofStart])⟩
          simp only [Worker.ofStart, hended]
          rfl
    · simp only [List.map_cons, List.map_nil, Report.seen, Past.seeAll, List.foldl_cons,
        List.foldl_nil, Past.see, if_neg hk]
      refine h.frame ?_ ?_ ?_
      · rw [Followers.lookup_handles_insert, if_neg (Ne.symm hk)]
      · rw [Followers.insert, lookup_filter_key (fun k' => k' != k)]
        simp [Ne.symm hk]
      · intro u hu hkey hab
        rcases List.mem_append.mp hu with hu | hu
        · exact hu
        · obtain rfl := List.mem_singleton.mp hu
          exact absurd hkey hk
  · -- a refusal changes neither the handles nor the marks
    simp only [List.map_cons, List.map_nil, List.append_nil, Report.seen, Past.seeAll,
      List.foldl_cons, List.foldl_nil, Past.see]
    exact h.frame rfl rfl fun u hu _ _ => hu

/-- A step of a task matters to its own container, and only while the task is not stopped. -/
theorem replace (h : Marked w ws key p) (hc : Coherent w ws) {v : Worker} (hv : v ∈ ws)
    (v' : Worker) (hid : v'.id = v.id) (hkey : v'.key = v.key) (hab : v'.aborted = v.aborted)
    {p' : Past}
    (hfits : v.key = key → v.aborted = false → v'.Fits p')
    (hother : ¬ (v.key = key ∧ v.aborted = false) → p' = p) :
    Marked w (ws.map fun u => if u.id = v'.id then v' else u) key p' := by
  have hmem : ∀ u' ∈ ws.map (fun u => if u.id = v'.id then v' else u),
      u' = v' ∨ u' ∈ ws ∧ u'.id ≠ v.id := by
    intro u' hu'
    obtain ⟨u, hu, rfl⟩ := List.mem_map.mp hu'
    by_cases hi : u.id = v'.id
    · exact .inl (if_pos hi)
    · rw [if_neg hi]
      exact .inr ⟨hu, hid ▸ hi⟩
  by_cases hown : v.key = key ∧ v.aborted = false
  · obtain ⟨rfl, ha⟩ := hown
    have hlive := (hc.live_iff v hv).mp ha
    refine ⟨fun hn => by simp [hn] at hlive, ?_⟩
    intro u' hu' hukey huab
    rcases hmem u' hu' with rfl | ⟨hu, hne⟩
    · exact hfits rfl ha
    · have hl := (hc.live_iff u' hu).mp huab
      rw [hukey, hlive, Option.some_inj] at hl
      exact absurd hl.symm hne
  · rw [hother hown]
    refine h.frame rfl rfl ?_
    intro u' hu' hukey huab
    rcases hmem u' hu' with rfl | ⟨hu, -⟩
    · exact absurd ⟨hkey ▸ hukey, hab ▸ huab⟩ hown
    · exact hu

/-- A task that asks for its log has begun, and that is all. -/
theorem begins (h : Marked w ws key p) (hc : Coherent w ws) {v : Worker} (hv : v ∈ ws)
    (now : Nat) :
    Marked w (ws.map fun u => if u.id = (v.begin now).id then v.begin now else u) key p := by
  refine h.replace hc hv (v.begin now) rfl rfl rfl (fun hkey ha => ?_) fun _ => rfl
  have hfits := h.live v hv hkey ha
  exact ⟨nofun, hfits.reading, hfits.finished⟩

/-- A task that was stopped does not matter. -/
theorem cancels (h : Marked w ws key p) (hc : Coherent w ws) {v : Worker} (hv : v ∈ ws)
    (ha : v.aborted = true) (now : Nat) :
    Marked w (ws.map fun u => if u.id = (v.cancel now).id then v.cancel now else u) key p :=
  h.replace hc hv (v.cancel now) rfl rfl rfl (fun _ ha' => absurd ha' (by simp [ha])) fun _ => rfl

/-- What a task meets belongs to the past of its container. -/
theorem follows (h : Marked w ws key p) (hc : Coherent w ws) {v : Worker} (hv : v ∈ ws)
    (ha : v.aborted = false) (hb : v.begun = true) {e : LogEvent} (he : v.state.expects e)
    (now : Nat) :
    Marked w (ws.map fun u => if u.id = (v.meet now e).id then v.meet now e else u) key
      (if v.key = key then p.meet now e else p) := by
  refine h.replace hc hv (v.meet now e) rfl rfl rfl (fun hkey ha => ?_)
    fun hn => if_neg fun hk => hn ⟨hk, ha⟩
  rw [if_pos hkey]
  exact (h.live v hv hkey ha).meet hb he now

end Marked

/-! ### Steps -/

/-- One step keeps the marks. -/
theorem System.Step.marked {s s' : System} {now : Nat} {seen : List Seen}
    (hs : s.Step now seen s') (hc : Coherent s.watch s.workers) {key : ContainerKey} {p : Past}
    (h : Marked s.watch s.workers key p) :
    Marked s'.watch s'.workers key (p.seeAll key now seen) := by
  cases hs with
  | poll done hp ht hd =>
    obtain ⟨hn, hmem, hkeep⟩ := s.noticed hc.nodup_ids hd
    obtain ⟨-, hreap⟩ := Coherent.reap_induction
      (P := fun w ws seen => Marked w ws key (p.seeAll key now seen))
      (fun {w ws seen v t} hc hv ht h => by
        have hexits : ∀ r ∈ (w.reapOne v.id t).2, ∃ k, r = .exit k := by
          rw [hc.reports_reapOne hv]
          cases v.aborted <;> simp
        rw [Past.seeAll_append, Past.seeAll_exits hexits]
        exact h.reapOne hc hv ht)
      done hn hmem hc (show Marked s.watch s.workers key (p.seeAll key now []) from h)
    rwa [hkeep] at hreap
  | listed pods current accept exits hp ht hcur he =>
    have hfirst : Coherent { s.watch with first := false } s.workers := { hc with }
    have hmarked : Marked { s.watch with first := false } s.workers key p := { h with }
    have hexits : ∀ r ∈ exits, ∃ k, r = .exit k := by
      intro r hr
      obtain ⟨q, -, rfl⟩ := List.mem_map.mp (he.mem_iff.mp hr)
      exact ⟨q.1, rfl⟩
    have hretain : p.seeAll key now (.listing current :: exits.map Report.seen)
        = if current.contains key then p else {} := by
      rw [Past.seeAll, List.foldl_cons]
      exact Past.seeAll_exits hexits
    obtain ⟨-, hoffer⟩ := Coherent.offerAll_induction accept now
      (P := fun w ws seen => Marked w ws key (p.seeAll key now seen))
      (fun k hc h => by
        rw [Past.seeAll_append]
        exact h.offer hc accept now k)
      current (hfirst.retain current) (hretain ▸ hmarked.retain hfirst current)
    exact hoffer
  | missed e w hp ht hw =>
    obtain rfl := Watch.eq_of_listingFailed hw
    exact h
  | fails e f hp ht hw => exact h
  | begins w hw ha hb hl ht => exact h.begins hc hw now
  | follows w e hw ha hb he hl ht =>
    rw [Past.seeAll_follower]
    exact h.follows hc hw ha hb he now
  | cancels w hw ha hn hl ht => exact h.cancels hc hw ha now

/-- Every run keeps the marks, from the start. -/
theorem System.Run.marked {trace : Trace} {s : System} (h : System.Run trace s)
    (key : ContainerKey) : Marked s.watch s.workers key (trace.past key) := by
  induction h with
  | start => exact .start key
  | step hr hs ih =>
    rw [Trace.past_append]
    exact hs.marked hr.accounted.coherent ih

/-! ### Every run -/

/-- A step in which a log is asked for is that of a task that begins. -/
theorem System.Step.of_asks {s s' : System} {now : Nat} {seen : List Seen}
    (hs : s.Step now seen s') {key : ContainerKey} {since : Option Nat}
    (h : .asks key since ∈ seen) :
    seen = [.asks key since] ∧ ∃ v ∈ s.workers, v.aborted = false ∧ v.begun = false ∧
      v.key = key ∧ v.since = since ∧ v.clock ≤ now := by
  have hreports : ∀ rs : List Report, .asks key since ∉ rs.map Report.seen := by
    intro rs hr
    obtain ⟨r, -, hr⟩ := List.mem_map.mp hr
    cases r <;> simp [Report.seen] at hr
  cases hs with
  | poll done hp ht hd => exact absurd h (hreports _)
  | listed pods current accept exits hp ht hc he =>
    simp only [List.cons_append, List.mem_cons, List.mem_append, reduceCtorEq, false_or] at h
    exact (h.elim (hreports _) (hreports _)).elim
  | missed e w hp ht hw => simp at h
  | fails e f hp ht hw => simp at h
  | begins w hw ha hb hl ht =>
    obtain ⟨rfl, rfl⟩ : key = w.key ∧ since = w.since := by simpa using h
    exact ⟨rfl, w, hw, ha, hb, rfl, rfl, ht⟩
  | follows w e hw ha hb he hl ht => simp at h
  | cancels w hw ha hn hl ht => simp at h

/-- Where a log is asked for, a run has come to a task that begins. -/
theorem System.Run.exists_begins {trace : Trace} {s : System} (h : System.Run trace s)
    {before after : Trace} {now : Nat} {key : ContainerKey} {since : Option Nat}
    (ht : trace = before ++ (now, .asks key since) :: after) :
    ∃ s₀ v, System.Run before s₀ ∧ v ∈ s₀.workers ∧ v.aborted = false ∧ v.begun = false ∧
      v.key = key ∧ v.since = since ∧ v.clock ≤ now := by
  induction h generalizing after with
  | start => simp at ht
  | @step trace s s' time seen hr hs ih =>
    -- the question is part of the last step, or of the run before it
    have hlast : ∀ more, before = trace ++ more →
        seen.map (time, ·) = more ++ (now, .asks key since) :: after →
        ∃ s₀ v, System.Run before s₀ ∧ v ∈ s₀.workers ∧ v.aborted = false ∧ v.begun = false ∧
          v.key = key ∧ v.since = since ∧ v.clock ≤ now := by
      intro more hbefore hseen
      have hmem : (now, .asks key since) ∈ seen.map ((time, ·) : Seen → _) := by simp [hseen]
      obtain ⟨x, hx, hxe⟩ := List.mem_map.mp hmem
      obtain ⟨rfl, rfl⟩ : time = now ∧ x = .asks key since := by simpa using hxe
      obtain ⟨rfl, v, hv⟩ := hs.of_asks hx
      obtain rfl : more = [] := by
        cases more with
        | nil => rfl
        | cons y more => simp at hseen
      rw [List.append_nil] at hbefore
      subst hbefore
      exact ⟨s, v, hr, hv⟩
    rcases List.append_eq_append_iff.mp ht with ⟨more, hbefore, hseen⟩ | ⟨more, htrace, hseen⟩
    · exact hlast more hbefore hseen
    · cases more with
      | nil => exact hlast [] (by simpa using htrace.symm) (by simpa using hseen.symm)
      | cons y more =>
        rw [List.cons_append, List.cons.injEq] at hseen
        exact ih (by rw [htrace, hseen.1])

/-- The whole seconds that are asked for cover the time that they are made from. -/
theorem le_sinceSeconds (nanos : Nat) : nanos ≤ sinceSeconds nanos * nanosPerSecond := by
  have hparts := Nat.div_add_mod nanos nanosPerSecond
  have hrest : nanos % nanosPerSecond < nanosPerSecond := Nat.mod_lt _ (by decide)
  have hcover : nanos / nanosPerSecond + (if nanos % nanosPerSecond = 0 then 0 else 1)
      ≤ sinceSeconds nanos := Nat.le_max_right _ _
  calc nanos ≤ (nanos / nanosPerSecond + if nanos % nanosPerSecond = 0 then 0 else 1)
        * nanosPerSecond := by
        split <;> simp only [nanosPerSecond] at * <;> omega
    _ ≤ sinceSeconds nanos * nanosPerSecond := Nat.mul_le_mul_right _ hcover

/-- When the last attempt opened a log, its end is the end of the log that was opened last. -/
theorem Past.lastEnd_eq {p : Past} (h : p.LastOpened) : p.lastEnd = p.lastLogEnd := by
  unfold lastEnd lastLogEnd
  cases hp : p.attempts.getLast? with
  | none => simp [List.getLast?_eq_none_iff.mp hp]
  | some a =>
    obtain ⟨before, hsplit⟩ := List.getLast?_eq_some_iff.mp hp
    have ha : a.opened.isSome := h a hp
    simp [hsplit, ha]

/-- **How far back a follower asks.**  In every run, when a log is asked for, no log of the
container is open, and what is asked for is the time from the end of the last attempt since a
listing was without the container to the entry of the container; without an attempt it is all.  If
the last attempt did open a log, then nothing is skipped: all is asked for when no log was opened,
and otherwise the window, in whole seconds, reaches back from the entry to the end of the log that
was opened last, whatever the unit of time. -/
theorem System.Run.asks_since {trace before after : Trace} {s : System} {now : Nat}
    {key : ContainerKey} {since : Option Nat} (h : System.Run trace s)
    (ht : trace = before ++ (now, .asks key since) :: after) :
    let past := before.past key
    ∃ start ≤ now, past.started = some start ∧ past.reading = none ∧
      since = past.lastEnd.map (start - ·) ∧
      (past.LastOpened →
        (past.lastLogEnd = none → since = none) ∧
        ∀ ended, past.lastLogEnd = some ended → ∃ d, since = some d ∧
          ∀ unit, start * unit ≤ ended * unit + sinceSeconds (d * unit) * nanosPerSecond) := by
  intro past
  obtain ⟨s₀, v, hr, hv, ha, hb, rfl, hsince, hclock⟩ := h.exists_begins ht
  have hfits := (hr.marked v.key).live v hv rfl ha
  obtain ⟨hstate, hstarted, hwindow⟩ := hfits.waiting hb
  rw [hsince] at hwindow
  have hreading : past.reading = none := by
    rw [← Option.not_isSome_iff_eq_none, hfits.reading, hstate]
    simp
  refine ⟨v.clock, hclock, hstarted, hreading, hwindow, fun hopened => ?_⟩
  have hlast : past.lastEnd = past.lastLogEnd := Past.lastEnd_eq hopened
  rw [hwindow, ← hlast]
  refine ⟨fun hnone => by rw [hnone]; rfl, fun ended hended => ?_⟩
  refine ⟨v.clock - ended, by rw [hended]; rfl, fun unit => ?_⟩
  have hcover := le_sinceSeconds ((v.clock - ended) * unit)
  have hle : v.clock * unit ≤ ended * unit + (v.clock - ended) * unit := by
    rw [← Nat.add_mul]
    exact Nat.mul_le_mul_right unit (by omega)
  omega

/-- A log that cannot be opened at first is read from that time on only, although none of it was
read; once it was read, it is read on from its end. -/
theorem System.Run.asks_since_failedThenRead :
    ∃ (failed read : Trace) (s s' : System),
      System.Run (failed ++ [(2000, .asks ⟨"web", "app"⟩ (some 2000))]) s ∧
      (failed.past ⟨"web", "app"⟩).lastLogEnd = none ∧
      System.Run (read ++ [(4000, .asks ⟨"web", "app"⟩ (some 1000))]) s' ∧
      (read.past ⟨"web", "app"⟩).LastOpened ∧
      (read.past ⟨"web", "app"⟩).lastLogEnd = some 3000 ∧
      ∃ start ≤ 4000, (read.past ⟨"web", "app"⟩).started = some start ∧
        ∀ unit, start * unit ≤ 3000 * unit + sinceSeconds (1000 * unit) * nanosPerSecond := by
  have h0 := System.Run.start
  have h1 := h0.step (@System.Step.poll _ 0 [] rfl (Nat.le_refl 0) (.refl _))
  have h2 := h1.step (@System.Step.listed _ 0 [⟨"web", ["app"], none⟩] [⟨"web", "app"⟩]
    (fun _ => true) [] rfl (Nat.le_refl 0) (.of_eq rfl) (.refl _))
  have h3 := h2.step (@System.Step.begins _ 0
    ⟨0, ⟨"web", "app"⟩, none, false, .opening, false, 0, none⟩
    (by decide) rfl rfl (Nat.le_refl 0) (Nat.le_refl 0))
  have h4 := h3.step (@System.Step.follows _ 0
    ⟨0, ⟨"web", "app"⟩, none, true, .opening, false, 0, none⟩
    (.openFailed (.config "starting")) (by decide) rfl rfl rfl (Nat.le_refl 0) (Nat.le_refl 0))
  have h5 := h4.step (@System.Step.poll _ 2000 [(0, 0)] rfl (by decide) (.of_eq rfl))
  have h6 := h5.step (@System.Step.listed _ 2000 [⟨"web", ["app"], none⟩] [⟨"web", "app"⟩]
    (fun _ => true) [] rfl (by decide) (.of_eq rfl) (.refl _))
  have h7 := h6.step (@System.Step.begins _ 2000
    ⟨1, ⟨"web", "app"⟩, some 2000, false, .opening, false, 2000, none⟩
    (by decide) rfl rfl (by decide) (by decide))
  have h8 := h7.step (@System.Step.follows _ 2000
    ⟨1, ⟨"web", "app"⟩, some 2000, true, .opening, false, 2000, none⟩
    .opened (by decide) rfl rfl rfl (by decide) (by decide))
  have h9 := h8.step (@System.Step.follows _ 3000
    ⟨1, ⟨"web", "app"⟩, some 2000, true, .reading, false, 2000, none⟩
    .finished (by decide) rfl rfl rfl (by decide) (by decide))
  have h10 := h9.step (@System.Step.poll _ 4000 [(1, 3000)] rfl (by decide) (.of_eq rfl))
  have h11 := h10.step (@System.Step.listed _ 4000 [⟨"web", ["app"], none⟩] [⟨"web", "app"⟩]
    (fun _ => true) [] rfl (by decide) (.of_eq rfl) (.refl _))
  have h12 := h11.step (@System.Step.begins _ 4000
    ⟨2, ⟨"web", "app"⟩, some 1000, false, .opening, false, 4000, none⟩
    (by decide) rfl rfl (by decide) (by decide))
  obtain ⟨start, hle, hstarted, -, -, hcovers⟩ := h12.asks_since rfl
  obtain ⟨d, hd, hunit⟩ := (hcovers (by decide)).2 3000 (by decide)
  obtain rfl : 1000 = d := Option.some_inj.mp hd
  exact ⟨_, _, _, _, h7, by decide, h12, by decide, by decide, start, hle, hstarted, hunit⟩

end Rollout.Kubernetes
