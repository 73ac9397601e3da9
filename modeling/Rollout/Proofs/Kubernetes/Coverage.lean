/-
Which containers a watch knows of, after every listing.

* `Watch.known` are the containers that are followed and those that were refused;
* `Watch.known_reap_sublist` and `Watch.known_retain`: noticing tasks and a listing only take some
  away, and `Watch.offered_offerAll`: then all that is listed is known;
* `System.Step.covers` says so of the step that takes a listing, and `System.Step.nodup_known` that
  each container is known once;
* `System.Run.listing_covers` draws the conclusion.

Design notes: a refusal stands as long as the listings show the container, and a container whose
task is over is known again only when it is offered again.  So what is known before a listing says
who is offered.
-/
import Rollout.Proofs.Kubernetes.Callbacks

namespace Rollout.Kubernetes

/-! ### Listings -/

/-- A container of a listed pod that says that it runs, or says nothing. -/
def RunsIn (pods : List Pod) (key : ContainerKey) : Prop :=
  ∃ p ∈ pods, (p.phase = none ∨ p.phase = some "Running") ∧ p.name = key.pod ∧
    key.container ∈ p.containers

instance (pods : List Pod) (key : ContainerKey) : Decidable (RunsIn pods key) :=
  inferInstanceAs (Decidable (∃ p ∈ pods, _))

theorem mem_runningContainers {pods : List Pod} {key : ContainerKey} :
    key ∈ runningContainers pods ↔ RunsIn pods key := by
  simp only [runningContainers, List.mem_eraseDups, List.mem_flatMap, List.mem_filter,
    List.mem_map, Pod.isRunning, Bool.or_eq_true, beq_iff_eq, RunsIn, and_assoc]
  refine exists_congr fun p => and_congr_right fun _ => and_congr_right fun _ => ?_
  constructor
  · rintro ⟨c, hc, rfl⟩
    exact ⟨rfl, hc⟩
  · rintro ⟨hp, hc⟩
    exact ⟨key.container, hc, by rw [hp]⟩

/-- What a container was answered when it was offered. -/
def Seen.entry? (key : ContainerKey) : Seen → Option Bool
  | .call k (.enter admitted) => if k = key then some admitted else none
  | _ => none

/-- The answers to a container that was offered, in order. -/
def entries (key : ContainerKey) (seen : List Seen) : List Bool :=
  seen.filterMap (Seen.entry? key)

theorem entries_append (key : ContainerKey) (xs ys : List Seen) :
    entries key (xs ++ ys) = entries key xs ++ entries key ys :=
  List.filterMap_append

theorem entries_follower (key k : ContainerKey) (e : LogEvent) (reports : List FollowerReport) :
    entries key (.meets k e :: reports.map fun r => .call k r.callback) = [] := by
  rw [entries, List.filterMap_cons_none (by rfl), List.filterMap_map, List.filterMap_eq_nil_iff]
  intro r _
  cases r <;> rfl

theorem entries_exits {exits : List Report} (h : ∀ r ∈ exits, ∃ k, r = .exit k)
    (key : ContainerKey) : entries key (exits.map Report.seen) = [] := by
  rw [entries, List.filterMap_map, List.filterMap_eq_nil_iff]
  intro r hr
  obtain ⟨k, rfl⟩ := h r hr
  rfl

theorem entries_listing (key : ContainerKey) (current : List ContainerKey) (seen : List Seen) :
    entries key (.listing current :: seen) = entries key seen := rfl

/-! ### What is known -/

namespace Watch

variable (w : Watch)

/-- The containers that are followed. -/
def followed : List ContainerKey := w.followers.handles.map Prod.fst

/-- The containers whose last log has an end that is kept. -/
def marked : List ContainerKey := w.followers.ended.map Prod.fst

/-- The containers that are followed, and those that were refused. -/
def known : List ContainerKey := w.followed ++ w.skipped

variable {w}

theorem mem_followed_iff {key : ContainerKey} :
    key ∈ w.followed ↔ ∃ id, w.followers.handles.lookup key = some id := by
  rw [← Option.isSome_iff_exists, List.lookup_isSome_iff, followed, List.mem_map]
  simp only [beq_iff_eq]
  exact exists_congr fun p => and_congr_right fun _ => eq_comm

theorem offered_iff {key : ContainerKey} :
    (w.followers.contains key || w.skipped.contains key) = true ↔ key ∈ w.known := by
  rw [Bool.or_eq_true, Followers.contains, Option.isSome_iff_exists, ← mem_followed_iff,
    List.contains_iff_mem, known, List.mem_append]

/-! ### Noticing tasks -/

theorem handles_finish_sublist (f : Followers) (id : Nat) :
    (f.finish id).2.handles.Sublist f.handles := by
  rw [Followers.finish]
  split
  · exact .refl _
  · dsimp only
    split
    · exact List.filter_sublist
    · exact .refl _

/-- Nothing is known anew when a task is noticed. -/
theorem known_reapOne_sublist (id at_ : Nat) : (w.reapOne id at_).1.known.Sublist w.known := by
  have hfinish := (handles_finish_sublist w.followers id).map Prod.fst
  rw [reapOne]
  split
  · next f hf =>
    rw [hf] at hfinish
    exact hfinish.append (.refl _)
  · next f hf =>
    rw [hf] at hfinish
    exact hfinish.append (.refl _)

theorem known_reap_sublist (done : List (Nat × Nat)) : (w.reap done).1.known.Sublist w.known := by
  induction done generalizing w with
  | nil => exact .refl _
  | cons p done ih => exact ih.trans (known_reapOne_sublist p.1 p.2)

theorem exits_reapOne (id at_ : Nat) : ∀ r ∈ (w.reapOne id at_).2, ∃ key, r = .exit key := by
  unfold reapOne
  split <;> simp

theorem exits_reap (done : List (Nat × Nat)) : ∀ r ∈ (w.reap done).2, ∃ key, r = .exit key := by
  induction done generalizing w with
  | nil => simp [reap]
  | cons p done ih =>
    intro r hr
    rcases List.mem_append.mp hr with hr | hr
    · exact exits_reapOne p.1 p.2 r hr
    · exact ih r hr

/-! ### Taking a listing -/

theorem map_fst_filter {α : Type} (f : ContainerKey → Bool) (l : List (ContainerKey × α)) :
    (l.filter fun p => f p.1).map Prod.fst = (l.map Prod.fst).filter f := by
  rw [List.filter_map]
  rfl

/-- A listing leaves what it shows. -/
theorem known_retain (current : List ContainerKey) :
    (w.retain current).1.known = w.known.filter current.contains := by
  unfold known followed
  rw [List.filter_append]
  exact congrArg (· ++ _) (map_fst_filter current.contains _)

theorem marked_retain (current : List ContainerKey) :
    (w.retain current).1.marked = w.marked.filter current.contains :=
  map_fst_filter current.contains _

theorem exits_retain (current : List ContainerKey) :
    ∀ r ∈ (w.retain current).2, ∃ key, r = .exit key := by
  intro r hr
  obtain ⟨p, -, rfl⟩ := List.mem_map.mp hr
  exact ⟨p.1, rfl⟩

/-! ### Offering containers -/

variable (w) in
/-- Offering containers makes them known and leaves alone what was known.  It asks for those that
were not known, and they are followed when they were admitted. -/
structure Offered (keys : List ContainerKey) (w' : Watch) (reports : List Report) : Prop where
  mem_known : ∀ key, key ∈ w'.known ↔ key ∈ keys ∨ key ∈ w.known
  followed_iff : ∀ key ∈ w.known, (key ∈ w'.followed ↔ key ∈ w.followed)
  nodup : w.known.Nodup → w'.known.Nodup
  marked : w'.marked.Sublist w.marked
  entries : ∀ key, entries key (reports.map Report.seen)
    = if key ∈ keys ∧ key ∉ w.known then [decide (key ∈ w'.followed)] else []

theorem Offered.append {keys keys' : List ContainerKey} {w₁ w₂ : Watch}
    {reports reports' : List Report} (h : w.Offered keys w₁ reports)
    (h' : w₁.Offered keys' w₂ reports') :
    w.Offered (keys ++ keys') w₂ (reports ++ reports') where
  mem_known key := by
    rw [h'.mem_known, h.mem_known, List.mem_append]
    tauto
  followed_iff key hk :=
    (h'.followed_iff key ((h.mem_known key).mpr (.inr hk))).trans (h.followed_iff key hk)
  nodup hn := h'.nodup (h.nodup hn)
  marked := h'.marked.trans h.marked
  entries key := by
    rw [List.map_append, entries_append, h.entries, h'.entries]
    have hknown := h.mem_known key
    by_cases hk : key ∈ keys ∧ key ∉ w.known
    · -- it is known from the first part on, so the second does not ask again
      have hw₁ : key ∈ w₁.known := hknown.mpr (.inl hk.1)
      rw [if_pos hk, if_neg (fun h => h.2 hw₁), if_pos ⟨List.mem_append_left _ hk.1, hk.2⟩,
        List.append_nil, List.singleton_inj, decide_eq_decide]
      exact (h'.followed_iff key hw₁).symm
    · rw [if_neg hk, List.nil_append]
      refine if_congr ?_ rfl rfl
      rw [hknown, List.mem_append]
      tauto

theorem offered_nil : w.Offered [] w [] where
  mem_known key := by simp
  followed_iff _ _ := Iff.rfl
  nodup := id
  marked := .refl _
  entries key := by simp [Kubernetes.entries]

theorem offer_of_mem (accept : ContainerKey → Bool) (now : Nat) {key : ContainerKey}
    (hk : key ∈ w.known) : w.offer accept now key = (w, [], []) := by
  rw [offer, if_pos (offered_iff.mpr hk)]

/-- A container that is not known is asked for, and is followed or refused as it is answered. -/
theorem offer_of_notMem (accept : ContainerKey → Bool) (now : Nat) {key : ContainerKey}
    (hk : key ∉ w.known) :
    (w.offer accept now key).2.1 = [.enter key (accept key)] ∧
      (w.offer accept now key).1.followed = (if accept key then [key] else []) ++ w.followed ∧
      (w.offer accept now key).1.known.Perm (key :: w.known) ∧
      (w.offer accept now key).1.marked.Sublist w.marked := by
  rw [offer, if_neg (mt offered_iff.mp hk)]
  cases accept key with
  | true =>
    -- the container has no handle that its new one could replace
    have hold : w.followed.filter (· != key) = w.followed := by
      refine List.filter_eq_self.mpr fun k hm => ?_
      rw [bne_iff_ne]
      rintro rfl
      exact hk (List.mem_append_left _ hm)
    have hfollowed := congrArg (key :: ·) ((map_fst_filter (· != key) _).trans hold)
    exact ⟨rfl, hfollowed, .of_eq (congrArg (· ++ w.skipped) hfollowed),
      List.filter_sublist.map _⟩
  | false => exact ⟨rfl, rfl, List.perm_middle, .refl _⟩

theorem entries_enter (key k : ContainerKey) (admitted : Bool) :
    Kubernetes.entries k ([Report.enter key admitted].map Report.seen)
      = if k = key then [admitted] else [] := by
  by_cases hk : k = key
  · simp [Kubernetes.entries, Report.seen, Seen.entry?, hk]
  · simp [Kubernetes.entries, Report.seen, Seen.entry?, hk, Ne.symm hk]

theorem offered_offer (accept : ContainerKey → Bool) (now : Nat) (key : ContainerKey) :
    w.Offered [key] (w.offer accept now key).1 (w.offer accept now key).2.1 := by
  by_cases hk : key ∈ w.known
  · rw [offer_of_mem accept now hk]
    refine ⟨fun k => ?_, fun _ _ => Iff.rfl, id, .refl _, fun k => ?_⟩
    · rw [List.mem_singleton]
      exact ⟨.inr, fun h => h.elim (· ▸ hk) id⟩
    · rw [if_neg]
      · rfl
      · rintro ⟨hm, hn⟩
        rw [List.mem_singleton] at hm
        exact hn (hm ▸ hk)
  · obtain ⟨hreports, hfollowed, hknown, hmarked⟩ := offer_of_notMem accept now hk
    refine ⟨fun k => ?_, fun k hm => ?_, fun hn => ?_, hmarked, fun k => ?_⟩
    · rw [hknown.mem_iff, List.mem_cons, List.mem_singleton]
    · rw [hfollowed, List.mem_append, or_iff_right]
      intro h
      obtain rfl : k = key := by
        split at h
        · exact List.mem_singleton.mp h
        · cases h
      exact hk hm
    · exact hknown.nodup_iff.mpr (hn.cons hk)
    · rw [hreports, entries_enter, hfollowed]
      by_cases hkey : k = key
      · subst hkey
        have hold : k ∉ w.followed := fun h => hk (List.mem_append_left _ h)
        cases accept k <;> simp [hk, hold]
      · simp [hkey]

theorem offered_offerAll (accept : ContainerKey → Bool) (now : Nat)
    (current : List ContainerKey) :
    w.Offered current (w.offerAll accept now current).1 (w.offerAll accept now current).2.1 := by
  induction current generalizing w with
  | nil => exact offered_nil
  | cons key rest ih => exact (offered_offer accept now key).append ih

end Watch

/-! ### Every run -/

/-- Every step keeps the containers that are known apart. -/
theorem System.Step.nodup_known {s s' : System} {now : Nat} {seen : List Seen}
    (h : s.watch.known.Nodup) (hs : s.Step now seen s') : s'.watch.known.Nodup := by
  cases hs with
  | poll done hp ht hd => exact h.sublist (Watch.known_reap_sublist done)
  | listed pods current accept exits hp ht hc he =>
    refine (Watch.offered_offerAll accept now current).nodup ?_
    rw [System.retained, Watch.known_retain]
    exact h.filter _
  | missed e w hp ht hw =>
    obtain rfl := Watch.eq_of_listingFailed hw
    exact h
  | fails e f hp ht hw => exact h
  | begins w hw ha hb hl ht => exact h
  | follows w e hw ha hb he hl ht => exact h
  | cancels w hw ha hn hl ht => exact h

theorem System.Run.nodup_known {trace : Trace} {s : System} (h : System.Run trace s) :
    s.watch.known.Nodup := by
  induction h with
  | start => exact List.nodup_nil
  | step _ hs ih => exact hs.nodup_known ih

/-- No container is offered before the pods are there. -/
theorem System.Step.entries_of_answer {s s' : System} {now : Nat} {seen : List Seen}
    (hs : s.Step now seen s') (hp' : s'.phase = .answer) (key : ContainerKey) :
    entries key seen = [] := by
  cases hs with
  | poll done hp ht hd => exact entries_exits (Watch.exits_reap done) key
  | listed pods current accept exits hp ht hc he => cases hp'
  | missed e w hp ht hw => cases hp'
  | fails e f hp ht hw => cases hp'
  | begins w hw ha hb hl ht => rfl
  | follows w e hw ha hb he hl ht => exact entries_follower ..
  | cancels w hw ha hn hl ht => rfl

/-- While the loop waits for the pods only followers are at work. -/
theorem System.Step.watch_of_answer {s s' : System} {now : Nat} {seen : List Seen}
    (hs : s.Step now seen s') (hp : s.phase = .answer) (hp' : s'.phase = .answer) :
    s'.watch = s.watch := by
  cases hs with
  | poll done htick ht hd =>
    rw [hp] at htick
    cases htick
  | listed pods current accept exits hp ht hc he => cases hp'
  | missed e w hp ht hw => cases hp'
  | fails e f hp ht hw => cases hp'
  | begins w hw ha hb hl ht => rfl
  | follows w e hw ha hb he hl ht => rfl
  | cancels w hw ha hn hl ht => rfl

/-- What happens while the loop waits for the pods. -/
inductive System.Waits (s : System) : List Seen → System → Prop where
  | start : s.Waits [] s
  | step {s' s'' : System} {now : Nat} {seen more : List Seen} (hw : s.Waits seen s')
      (hs : s'.Step now more s'') (hp : s''.phase = .answer) : s.Waits (seen ++ more) s''

namespace System.Waits

variable {s s' : System} {seen : List Seen}

theorem run (hw : s.Waits seen s') {trace : Trace} (h : System.Run trace s) :
    ∃ trace', System.Run trace' s' := by
  induction hw with
  | start => exact ⟨trace, h⟩
  | step _ hs _ ih =>
    obtain ⟨trace', h'⟩ := ih
    exact ⟨_, h'.step hs⟩

theorem quiet (hw : s.Waits seen s') (hp : s.phase = .answer) :
    s'.phase = .answer ∧ s'.watch = s.watch ∧ ∀ key, entries key seen = [] := by
  induction hw with
  | start => exact ⟨hp, rfl, fun _ => rfl⟩
  | step _ hs hp'' ih =>
    obtain ⟨hp', hwatch, hentries⟩ := ih
    refine ⟨hp'', (hs.watch_of_answer hp' hp'').trans hwatch, fun key => ?_⟩
    rw [entries_append, hentries, hs.entries_of_answer hp'']
    rfl

end System.Waits

/-- What is known after a listing is what it shows, and what was not known before is offered. -/
theorem System.Step.covers {s s' : System} {now : Nat} {current : List ContainerKey}
    {seen : List Seen} (hs : s.Step now (.listing current :: seen) s') (key : ContainerKey) :
    (key ∈ s'.watch.known ↔ key ∈ current) ∧
      entries key (.listing current :: seen)
        = (if key ∈ current ∧ key ∉ s.watch.known then [decide (key ∈ s'.watch.followed)] else []) ∧
      (key ∈ s'.watch.marked → key ∈ current) := by
  generalize hall : Seen.listing current :: seen = all at hs
  cases hs with
  | listed pods current' accept exits hp ht hc he =>
    obtain ⟨hcur, -⟩ := List.cons.inj hall
    obtain rfl := Seen.listing.inj hcur
    have hretain : (s.retained current).1.known = s.watch.known.filter current.contains :=
      Watch.known_retain current
    have hoffer := Watch.offered_offerAll (w := (s.retained current).1) accept now current
    have hkept : key ∈ (s.retained current).1.known ↔ key ∈ s.watch.known ∧ key ∈ current := by
      rw [hretain, List.mem_filter, List.contains_iff_mem]
    refine ⟨?_, ?_, fun hm => ?_⟩
    · rw [hoffer.mem_known, hkept]
      tauto
    · have hexits : ∀ r ∈ exits, ∃ k, r = .exit k := fun r hr =>
        Watch.exits_retain current r (he.mem_iff.mp hr)
      rw [List.cons_append, entries_listing, entries_append, entries_exits hexits,
        hoffer.entries, List.nil_append]
      refine if_congr ?_ rfl rfl
      rw [hkept]
      tauto
    · have hm' := hoffer.marked.subset hm
      rw [System.retained, Watch.marked_retain, List.mem_filter, List.contains_iff_mem] at hm'
      exact hm'.2
  | poll done hp ht hd =>
    have hm : Seen.listing current ∈ (s.watch.reap done).2.map Report.seen :=
      hall ▸ List.mem_cons_self
    obtain ⟨r, hr, hseen⟩ := List.mem_map.mp hm
    obtain ⟨k, rfl⟩ := Watch.exits_reap done r hr
    cases hseen
  | missed e w hp ht hw => cases hall
  | fails e f hp ht hw => cases hall
  | begins w hw ha hb hl ht => cases hall
  | follows w e hw ha hb he hl ht => cases hall
  | cancels w hw ha hn hl ht => cases hall

/-- A container is followed while a task that was not stopped reads its log. -/
theorem Coherent.mem_followed_iff {w : Watch} {ws : List Worker} (h : Coherent w ws)
    (key : ContainerKey) : key ∈ w.followed ↔ ∃ v ∈ ws, v.key = key ∧ v.aborted = false := by
  rw [Watch.mem_followed_iff]
  constructor
  · rintro ⟨id, hl⟩
    obtain ⟨v, hv, rfl, rfl⟩ := h.exists_worker key id hl
    exact ⟨v, hv, rfl, (h.live_iff v hv).mpr hl⟩
  · rintro ⟨v, hv, rfl, ha⟩
    exact ⟨v.id, (h.live_iff v hv).mp ha⟩

/-- **What a listing shows is followed or refused, and nothing else is**, in every run: each
running container once.  Those that were not known when the tasks that were over had been noticed
are offered once, and are followed when they were admitted. -/
theorem System.Run.listing_covers {trace : Trace} {s s₁ s₂ s' : System} {now later : Nat}
    {pods : List Pod} {current : List ContainerKey} {reaped waited seen : List Seen}
    (h : System.Run trace s) (hpoll : s.Step now reaped s₁) (hp₁ : s₁.phase = .answer)
    (hw : s₁.Waits waited s₂) (hs : s₂.Step later (.listing current :: seen) s')
    (hc : current.Perm (runningContainers pods)) :
    (s'.watch.followed ++ s'.watch.skipped).Nodup ∧
      (∀ key, key ∈ s'.watch.followed ++ s'.watch.skipped ↔ RunsIn pods key) ∧
      (∀ key, entries key (reaped ++ waited ++ .listing current :: seen)
        = if RunsIn pods key ∧ key ∉ s₁.watch.known
          then [decide (key ∈ s'.watch.followed)] else []) ∧
      (∀ key, ¬RunsIn pods key → key ∉ s'.watch.followed ∧ key ∉ s'.watch.skipped ∧
        key ∉ s'.watch.marked) ∧
      ∀ key, key ∈ s'.watch.followed ↔ ∃ v ∈ s'.workers, v.key = key ∧ v.aborted = false := by
  obtain ⟨trace₂, h₂⟩ := hw.run (h.step hpoll)
  have h' := h₂.step hs
  obtain ⟨-, hwatch, hwaited⟩ := hw.quiet hp₁
  have hshown : ∀ key, key ∈ current ↔ RunsIn pods key := fun key =>
    hc.mem_iff.trans mem_runningContainers
  have hknown : ∀ key, key ∈ s'.watch.known ↔ RunsIn pods key := fun key =>
    (hs.covers key).1.trans (hshown key)
  refine ⟨h'.nodup_known, hknown, fun key => ?_, fun key hgone => ?_,
    h'.accounted.coherent.mem_followed_iff⟩
  · rw [entries_append, entries_append, hpoll.entries_of_answer hp₁, hwaited,
      (hs.covers key).2.1, ← hwatch, List.nil_append, List.nil_append]
    exact if_congr (and_congr_left fun _ => hshown key) rfl rfl
  · have hnone := mt (hknown key).mp hgone
    rw [Watch.known, List.mem_append, not_or] at hnone
    exact ⟨hnone.1, hnone.2, fun hm => hgone ((hshown key).mp ((hs.covers key).2.2 hm))⟩

/-- A container whose log has ended is offered again, and one that was refused leaves. -/
theorem System.Run.listing_covers_offered_again :
    ∃ (trace : Trace) (s₁ s' : System) (seen : List Seen), System.Run trace s₁ ∧
      s₁.Step 4 (.listing [⟨"web", "app"⟩] :: seen) s' ∧
      s₁.watch.known = [⟨"web", "proxy"⟩] ∧ entries ⟨"web", "app"⟩ seen = [true] ∧
      s'.watch.known = [⟨"web", "app"⟩] ∧
      (s'.watch.followed ++ s'.watch.skipped).Nodup ∧
      (∀ key, key ∈ s'.watch.followed ++ s'.watch.skipped ↔
        RunsIn [⟨"web", ["app", "app"], some "Running"⟩, ⟨"job", ["run"], some "Pending"⟩] key) ∧
      ∀ key, key ∈ s'.watch.followed ↔ ∃ v ∈ s'.workers, v.key = key ∧ v.aborted = false := by
  have h0 := System.Run.start
  have h1 := h0.step (@System.Step.poll _ 0 [] rfl (Nat.le_refl 0) (.refl _))
  have h2 := h1.step (@System.Step.listed _ 1 [⟨"web", ["app", "proxy"], none⟩]
    [⟨"web", "app"⟩, ⟨"web", "proxy"⟩] (·.container == "app") [] rfl (Nat.zero_le 1)
    (.of_eq rfl) (.refl _))
  have h3 := h2.step (@System.Step.begins _ 1
    ⟨0, ⟨"web", "app"⟩, none, false, .opening, false, 1, none⟩
    (by decide) rfl rfl (Nat.le_refl 1) (Nat.le_refl 1))
  have h4 := h3.step (@System.Step.follows _ 2
    ⟨0, ⟨"web", "app"⟩, none, true, .opening, false, 1, none⟩
    (.openFailed (.config "no log")) (by decide) rfl rfl rfl (by decide) (by decide))
  have h5 := h4.step (@System.Step.poll _ 4 [(0, 2)] rfl (by decide) (.of_eq rfl))
  have hcurrent : [(⟨"web", "app"⟩ : ContainerKey)].Perm (runningContainers
      [⟨"web", ["app", "app"], some "Running"⟩, ⟨"job", ["run"], some "Pending"⟩]) := .of_eq rfl
  refine ⟨_, _, _, _, h5,
    @System.Step.listed _ 4 _ _ (fun _ => true) [] rfl (by decide) hcurrent (.refl _), ?_⟩
  obtain ⟨hnodup, hshown, -, -, hlive⟩ := h4.listing_covers
    (@System.Step.poll _ 4 [(0, 2)] rfl (by decide) (.of_eq rfl)) rfl .start
    (@System.Step.listed _ 4 _ _ (fun _ => true) [] rfl (by decide) hcurrent (.refl _)) hcurrent
  exact ⟨by decide, by decide, by decide, hnodup, hshown, hlive⟩

end Rollout.Kubernetes
