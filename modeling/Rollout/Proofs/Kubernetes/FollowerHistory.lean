/-
The followers of a watch after any history of starts, drops and ends.

One table leads from a container to the task that follows it, another from a task's number back to
its container.  Dropping a container changes the first one only, so the two part company until the
task is noticed to be over, which may be long after the container is followed again.  What they hold
is read off the history alone:

* `Followers.Pending` tasks were started and not noticed since, and a `Followers.Live` one had its
  container not dropped either;
* `Followers.finish_cases` says what noticing a number does to the tables, whatever they hold;
* `Followers.Run.mirrors`: the table of numbers holds the pending tasks, that of containers the
  live ones, by one lemma for each change;
* `Followers.live_or_over`: a number that is not live is unknown, noticed or stale;
* `System.Run.exists_changes`: in every run the followers of a watch come about by such a history;
* `Followers.Run.finishes_live` draws the conclusion: a number that is noticed takes away the
  follower that has it, and nothing else.

Design notes: a history names every number that is looked up, whether a task has it or not, and the
numbers come in any order.  A number may be given again when the task that had it was noticed.
The ends of logs are kept beside the two tables and are no matter to them.
-/
import Rollout.Proofs.Kubernetes.Followers

namespace Rollout.Kubernetes

namespace Followers

/-! ### Histories -/

/-- What a watch does to the tasks it keeps. -/
inductive Change where
  | insert (key : ContainerKey) (id : Nat)
  | abort (key : ContainerKey)
  | finish (id : Nat)
  deriving DecidableEq, Repr

/-- A change was made, and since then none that ends it.  The latest change comes first. -/
def Stands (past : List Change) (c : Change) (ends : Change → Prop) : Prop :=
  ∃ later before, past = later ++ c :: before ∧ ∀ d ∈ later, ¬ ends d

/-- A task was started for a container and was not noticed since. -/
def Pending (past : List Change) (key : ContainerKey) (id : Nat) : Prop :=
  Stands past (.insert key id) (· = .finish id)

/-- A task was started for a container, and since then neither was the task noticed nor the
container dropped. -/
def Live (past : List Change) (key : ContainerKey) (id : Nat) : Prop :=
  Stands past (.insert key id) fun c => c = .finish id ∨ c = .abort key

/-- No task was ever started with a number. -/
def Unknown (past : List Change) (id : Nat) : Prop := ∀ key, .insert key id ∉ past

/-- A number was noticed, and no task was started with it since. -/
def Noticed (past : List Change) (id : Nat) : Prop :=
  Stands past (.finish id) fun c => ∃ key, c = .insert key id

/-- A task was not noticed since it was started, but its container was dropped since. -/
def Stale (past : List Change) (id : Nat) : Prop :=
  ∃ key, Pending past key id ∧ Stands past (.abort key) (· = .insert key id)

/-- The followers that a history leads to.  A task is started for a container that has no handle,
with a number that no pending task has. -/
inductive Run : List Change → Followers → Prop where
  | start : Run [] {}
  | insert {past : List Change} {f : Followers} {key : ContainerKey} {id : Nat} (h : Run past f)
      (hk : f.contains key = false) (hi : ∀ k, ¬ Pending past k id) :
      Run (.insert key id :: past) (f.insert key id)
  | abort {past : List Change} {f : Followers} (h : Run past f) (key : ContainerKey) :
      Run (.abort key :: past) (f.abort key)
  | finish {past : List Change} {f : Followers} (h : Run past f) (id : Nat) :
      Run (.finish id :: past) (f.finish id).2
  /-- Ends of logs are marked and forgotten. -/
  | marks {past : List Change} {f : Followers} (h : Run past f)
      (ended : List (ContainerKey × Nat)) : Run past { f with ended }

variable {past : List Change} {f : Followers} {key k : ContainerKey} {id i : Nat} {c d : Change}
  {ends ends' : Change → Prop}

/-! ### Changes that stand -/

theorem not_stands_nil : ¬ Stands [] c ends := by
  rintro ⟨later, before, h, -⟩
  simp at h

theorem stands_cons : Stands (d :: past) c ends ↔ d = c ∨ (¬ ends d ∧ Stands past c ends) := by
  constructor
  · rintro ⟨later, before, h, hlater⟩
    cases later with
    | nil => exact .inl (List.cons.inj h).1
    | cons x later =>
      obtain ⟨rfl, rfl⟩ := List.cons.inj h
      rw [List.forall_mem_cons] at hlater
      exact .inr ⟨hlater.1, later, before, rfl, hlater.2⟩
  · rintro (rfl | ⟨hd, later, before, rfl, hlater⟩)
    · exact ⟨[], past, rfl, by simp⟩
    · exact ⟨d :: later, before, rfl, List.forall_mem_cons.mpr ⟨hd, hlater⟩⟩

theorem Stands.mem (h : Stands past c ends) : c ∈ past := by
  obtain ⟨later, before, rfl, -⟩ := h
  simp

theorem Stands.of_imp (h : Stands past c ends) (hi : ∀ d, ends' d → ends d) :
    Stands past c ends' := by
  obtain ⟨later, before, hpast, hlater⟩ := h
  exact ⟨later, before, hpast, fun d hd => mt (hi d) (hlater d hd)⟩

/-- Of two changes that end each other only the later one stands. -/
theorem Stands.not_stands (h : Stands past c ends) (hd : ends d) (hc : ends' c) (hne : c ≠ d) :
    ¬ Stands past d ends' := by
  induction past with
  | nil => exact not_stands_nil
  | cons x past ih =>
    rw [stands_cons] at h ⊢
    -- if one of the two is the latest change, the other one was ended by it
    rintro (rfl | ⟨hx, h'⟩)
    · obtain rfl | ⟨hx, -⟩ := h
      · exact hne rfl
      · exact hx hd
    · obtain rfl | ⟨-, h⟩ := h
      · exact hx hc
      · exact ih h h'

theorem pending_cons :
    Pending (c :: past) key id ↔ c = .insert key id ∨ (c ≠ .finish id ∧ Pending past key id) :=
  stands_cons

theorem live_cons :
    Live (c :: past) key id ↔
      c = .insert key id ∨ ((c ≠ .finish id ∧ c ≠ .abort key) ∧ Live past key id) := by
  rw [Live, stands_cons, not_or]
  rfl

theorem Live.pending (h : Live past key id) : Pending past key id :=
  h.of_imp fun _ => .inl

theorem Unknown.not_pending (h : Unknown past id) (key : ContainerKey) : ¬ Pending past key id :=
  fun hp => h key hp.mem

/-- Every number is live, or there is a reason why it is not. -/
theorem live_or_over (past : List Change) (id : Nat) :
    (∃ key, Live past key id) ∨ Unknown past id ∨ Noticed past id ∨ Stale past id := by
  induction past with
  | nil => exact .inr (.inl fun _ => by simp)
  | cons c past ih =>
    by_cases hstart : ∃ key, c = .insert key id
    · obtain ⟨key, rfl⟩ := hstart
      exact .inl ⟨key, live_cons.mpr (.inl rfl)⟩
    by_cases hend : c = .finish id
    · exact .inr (.inr (.inl (stands_cons.mpr (.inl hend))))
    have hne : ∀ key, c ≠ .insert key id := fun key h => hstart ⟨key, h⟩
    -- the change is not about the number itself; it can only drop the container of a live task
    rcases ih with ⟨key, hl⟩ | hu | hn | ⟨key, hp, hs⟩
    · by_cases hdrop : c = .abort key
      · exact .inr (.inr (.inr
          ⟨key, pending_cons.mpr (.inr ⟨hend, hl.pending⟩), stands_cons.mpr (.inl hdrop)⟩))
      · exact .inl ⟨key, live_cons.mpr (.inr ⟨⟨hend, hdrop⟩, hl⟩)⟩
    · exact .inr (.inl fun key => by simp [hu key, (hne key).symm])
    · exact .inr (.inr (.inl (stands_cons.mpr (.inr ⟨hstart, hn⟩))))
    · exact .inr (.inr (.inr ⟨key, pending_cons.mpr (.inr ⟨hend, hp⟩),
        stands_cons.mpr (.inr ⟨hne key, hs⟩)⟩))

/-! ### Looking up a number -/

/-- The number of every handle leads back to its container. -/
def LeadsBack (f : Followers) : Prop :=
  ∀ key id, f.handles.lookup key = some id → f.keys.lookup id = some key

theorem LeadsBack.eq (h : f.LeadsBack) (hk : f.handles.lookup key = some id)
    (hk' : f.handles.lookup k = some id) : k = key :=
  Option.some_inj.mp ((h k id hk').symm.trans (h key id hk))

/-- Noticing a number forgets it, and drops its container when the handle there has the number. -/
theorem finish_cases (f : Followers) (id : Nat) :
    (∃ key, f.keys.lookup id = some key ∧ f.handles.lookup key = some id ∧
      f.finish id = (some key, { f with keys := f.keys.filter (·.1 != id) }.abort key)) ∨
    ((∀ key, f.keys.lookup id = some key → f.handles.lookup key ≠ some id) ∧
      f.finish id = (none, { f with keys := f.keys.filter (·.1 != id) })) := by
  cases hk : f.keys.lookup id with
  | none =>
    have hkept : f.keys.filter (·.1 != id) = f.keys := by
      refine List.filter_eq_self.mpr fun p hp => ?_
      rw [bne_comm]
      exact List.lookup_eq_none_iff.mp hk p hp
    exact .inr ⟨nofun, by simp [finish, hk, hkept]⟩
  | some key =>
    by_cases hl : f.handles.lookup key = some id
    · exact .inl ⟨key, rfl, hl, finish_of_live hk hl⟩
    · refine .inr ⟨fun k h => ?_, finish_of_stale hk hl⟩
      rwa [← Option.some_inj.mp h]

theorem handles_finish_of_none (h : (f.finish id).1 = none) :
    (f.finish id).2.handles = f.handles := by
  obtain ⟨key, -, -, he⟩ | ⟨-, he⟩ := finish_cases f id
  · rw [he] at h
    cases h
  · rw [he]

theorem finish_eq_some_iff (h : f.LeadsBack) :
    (f.finish id).1 = some key ↔ f.handles.lookup key = some id := by
  obtain ⟨k, -, hl, he⟩ | ⟨hn, he⟩ := finish_cases f id
  · rw [he, Option.some_inj]
    exact ⟨fun hk => hk ▸ hl, fun hl' => h.eq hl' hl⟩
  · rw [he]
    exact ⟨nofun, fun hl => absurd hl (hn key (h key id hl))⟩

theorem lookup_handles_finish (h : f.LeadsBack) :
    (f.finish id).2.handles.lookup k
      = if f.handles.lookup k = some id then none else f.handles.lookup k := by
  obtain ⟨key, -, hl, he⟩ | ⟨hn, he⟩ := finish_cases f id
  · rw [he, lookup_handles_abort]
    exact if_congr ⟨fun hk => hk ▸ hl, h.eq hl⟩ rfl rfl
  · rw [he, if_neg fun hl => hn k (h k id hl) hl]

theorem lookup_keys_finish :
    (f.finish id).2.keys.lookup i = if i = id then none else f.keys.lookup i := by
  have hfilter : (f.keys.filter (·.1 != id)).lookup i
      = if i = id then none else f.keys.lookup i := by
    rw [lookup_filter_key (fun i => i != id)]
    by_cases hi : i = id <;> simp [hi]
  obtain ⟨key, -, -, he⟩ | ⟨-, he⟩ := finish_cases f id
  · rw [he]
    exact hfilter
  · rw [he]
    exact hfilter

/-! ### The tables mirror the history -/

/-- The tables hold just the tasks that are live, and those that are pending. -/
structure Mirrors (f : Followers) (past : List Change) : Prop where
  handles : ∀ key id, f.handles.lookup key = some id ↔ Live past key id
  keys : ∀ id key, f.keys.lookup id = some key ↔ Pending past key id

namespace Mirrors

theorem leadsBack (m : Mirrors f past) : f.LeadsBack := fun key id h =>
  (m.keys id key).mpr ((m.handles key id).mp h).pending

theorem start : Mirrors {} [] :=
  ⟨fun _ _ => ⟨nofun, fun h => absurd h not_stands_nil⟩,
    fun _ _ => ⟨nofun, fun h => absurd h not_stands_nil⟩⟩

theorem insert (m : Mirrors f past) (hk : f.contains key = false)
    (hi : ∀ k, ¬ Pending past k id) :
    Mirrors (f.insert key id) (.insert key id :: past) := by
  have hfree : f.handles.lookup key = none := by
    simpa [contains] using hk
  refine ⟨fun k i => ?_, fun i k => ?_⟩
  · rw [lookup_handles_insert, live_cons, ← m.handles]
    by_cases hkey : k = key
    · -- no task was live there, so the new one is the only one
      subst hkey
      simp [hfree]
    · simp [hkey, Ne.symm hkey]
  · rw [lookup_keys_insert, pending_cons]
    by_cases hid : i = id
    · -- no pending task had the number, so it leads to the new container only
      subst hid
      simp [hi]
    · simp [hid, Ne.symm hid, m.keys]

/-- The number of the task that is dropped goes on leading to its container. -/
theorem abort (m : Mirrors f past) (key : ContainerKey) :
    Mirrors (f.abort key) (.abort key :: past) := by
  refine ⟨fun k i => ?_, fun i k => ?_⟩
  · rw [lookup_handles_abort, live_cons, ← m.handles]
    by_cases hkey : k = key
    · simp [hkey]
    · simp [hkey, Ne.symm hkey]
  · rw [pending_cons, ← m.keys]
    simp [Followers.abort]

theorem finish (m : Mirrors f past) (id : Nat) :
    Mirrors (f.finish id).2 (.finish id :: past) := by
  refine ⟨fun k i => ?_, fun i k => ?_⟩
  · rw [lookup_handles_finish m.leadsBack, live_cons, ← m.handles]
    by_cases hid : i = id
    · subst hid
      simp
    · -- a handle that goes had the number itself, so other numbers keep theirs
      split
      · next h => simp [h, Ne.symm hid]
      · simp [Ne.symm hid]
  · rw [lookup_keys_finish, pending_cons, ← m.keys]
    by_cases hid : i = id
    · simp [hid]
    · simp [hid, Ne.symm hid]

end Mirrors

theorem Run.mirrors (h : Run past f) : Mirrors f past := by
  induction h with
  | start => exact .start
  | insert _ hk hi ih => exact ih.insert hk hi
  | abort _ key ih => exact ih.abort key
  | finish _ id ih => exact ih.finish id
  | marks _ ended ih => exact ⟨ih.handles, ih.keys⟩

/-- A number that is unknown, noticed or stale is not live. -/
theorem Mirrors.not_live (m : Mirrors f past)
    (h : Unknown past id ∨ Noticed past id ∨ Stale past id) (key : ContainerKey) :
    ¬ Live past key id := by
  intro hl
  rcases h with hu | hn | ⟨k, hp, hs⟩
  · exact hu.not_pending key hl.pending
  · exact hl.not_stands (.inl rfl) ⟨key, rfl⟩ nofun hn
  · -- the number leads back to one container only, and that one was dropped
    have hk := ((m.keys id k).mpr hp).symm.trans ((m.keys id key).mpr hl.pending)
    obtain rfl := Option.some_inj.mp hk
    exact hs.not_stands rfl (.inr rfl) nofun hl

/-- Containers are dropped one after another. -/
theorem Run.aborts (h : Run past f) (gone : List ContainerKey) :
    Run (gone.map Change.abort ++ past)
      { f with handles := f.handles.filter fun p => !gone.contains p.1 } := by
  induction gone with
  | nil => simpa using h
  | cons key gone ih =>
    have habort := ih.abort key
    rw [Followers.abort, List.filter_filter] at habort
    simpa [bne, beq_eq_decide] using habort

end Followers

/-! ### The followers of a watch -/

/-- The followers of a watch come about by a history, and its next number was not given yet. -/
structure Watch.Recorded (w : Watch) (past : List Followers.Change) : Prop where
  run : Followers.Run past w.followers
  id_lt : ∀ key id, Followers.Change.insert key id ∈ past → id < w.nextId

namespace Watch.Recorded

open Followers (Change)

variable {w : Watch} {past : List Change}

theorem start : Watch.Recorded {} [] :=
  ⟨.start, by simp⟩

theorem reapOne (h : w.Recorded past) (id at_ : Nat) :
    (w.reapOne id at_).1.Recorded (.finish id :: past) := by
  have hrun := h.run.finish id
  have hold : ∀ key i, Change.insert key i ∈ .finish id :: past → i < w.nextId :=
    fun key i hm => h.id_lt key i ((List.mem_cons.mp hm).resolve_left nofun)
  unfold Watch.reapOne
  split
  · next key f hf =>
    rw [hf] at hrun
    exact ⟨hrun.marks _, hold⟩
  · next f hf =>
    rw [hf] at hrun
    exact ⟨hrun, hold⟩

theorem reap (h : w.Recorded past) (done : List (Nat × Nat)) :
    ∃ more, (w.reap done).1.Recorded (more ++ past) := by
  induction done generalizing w past with
  | nil => exact ⟨[], h⟩
  | cons p done ih =>
    obtain ⟨more, hmore⟩ := ih (h.reapOne p.1 p.2)
    rw [← List.singleton_append, ← List.append_assoc] at hmore
    exact ⟨_, hmore⟩

theorem retain (h : w.Recorded past) (current : List ContainerKey) :
    ∃ more, (w.retain current).1.Recorded (more ++ past) := by
  obtain ⟨gone, hgone⟩ : ∃ gone : List ContainerKey, ∀ p ∈ w.followers.handles,
      (!gone.contains p.1) = current.contains p.1 := by
    refine ⟨(w.followers.handles.map Prod.fst).filter (!current.contains ·), fun p hp => ?_⟩
    have hm : p.1 ∈ w.followers.handles.map Prod.fst := List.mem_map_of_mem hp
    rw [Bool.eq_iff_iff]
    simp [hm]
  have hrun := (h.run.aborts gone).marks (w.followers.ended.filter fun p => current.contains p.1)
  rw [List.filter_congr hgone] at hrun
  refine ⟨gone.map Change.abort, hrun, fun key id hm => h.id_lt key id ?_⟩
  simpa using hm

theorem offer (h : w.Recorded past) (accept : ContainerKey → Bool) (now : Nat)
    (key : ContainerKey) : ∃ more, (w.offer accept now key).1.Recorded (more ++ past) := by
  unfold Watch.offer
  split
  · exact ⟨[], h⟩
  next hknown =>
  split
  · -- admitted: the next number was not given yet, so no pending task has it
    have hfree : w.followers.contains key = false := by
      rw [Bool.or_eq_true, not_or, Bool.not_eq_true] at hknown
      exact hknown.1
    have hunknown : Followers.Unknown past w.nextId := fun k hm =>
      Nat.lt_irrefl _ (h.id_lt k _ hm)
    refine ⟨[.insert key w.nextId], .insert (h.run.marks _) hfree hunknown.not_pending, ?_⟩
    intro k i hm
    rcases List.mem_cons.mp hm with heq | hm
    · obtain ⟨-, rfl⟩ := Change.insert.inj heq
      exact Nat.lt_succ_self _
    · exact Nat.lt_succ_of_lt (h.id_lt k i hm)
  · exact ⟨[], h.run, h.id_lt⟩

theorem offerAll (h : w.Recorded past) (accept : ContainerKey → Bool) (now : Nat)
    (current : List ContainerKey) :
    ∃ more, (w.offerAll accept now current).1.Recorded (more ++ past) := by
  induction current generalizing w past with
  | nil => exact ⟨[], h⟩
  | cons key rest ih =>
    obtain ⟨more, hmore⟩ := h.offer accept now key
    obtain ⟨more', hmore'⟩ := ih hmore
    rw [← List.append_assoc] at hmore'
    exact ⟨_, hmore'⟩

end Watch.Recorded

/-- Every step adds to the history. -/
theorem System.Step.recorded {s s' : System} {now : Nat} {seen : List Seen}
    {past : List Followers.Change} (hs : s.Step now seen s') (h : s.watch.Recorded past) :
    ∃ more, s'.watch.Recorded (more ++ past) := by
  cases hs with
  | poll done hp ht hd => exact h.reap done
  | listed pods current accept exits hp ht hc he =>
    have hfirst : ({ s.watch with first := false } : Watch).Recorded past := ⟨h.run, h.id_lt⟩
    obtain ⟨more, hmore⟩ := hfirst.retain current
    obtain ⟨more', hmore'⟩ := hmore.offerAll accept now current
    rw [← List.append_assoc] at hmore'
    exact ⟨_, hmore'⟩
  | missed e w hp ht hw =>
    obtain rfl := Watch.eq_of_listingFailed hw
    exact ⟨[], h⟩
  | fails e f hp ht hw => exact ⟨[], h⟩
  | begins w hw ha hb hl ht => exact ⟨[], h⟩
  | follows w e hw ha hb he hl ht => exact ⟨[], h⟩
  | cancels w hw ha hn hl ht => exact ⟨[], h⟩

/-- **The followers of a watch come about by the changes of a history**, in every run. -/
theorem System.Run.exists_changes {trace : Trace} {s : System} (h : System.Run trace s) :
    ∃ past, Followers.Run past s.watch.followers := by
  have hrecorded : ∃ past, s.watch.Recorded past := by
    induction h with
    | start => exact ⟨[], .start⟩
    | step _ hs ih =>
      obtain ⟨past, hpast⟩ := ih
      obtain ⟨more, hmore⟩ := hs.recorded hpast
      exact ⟨_, hmore⟩
  exact hrecorded.imp fun _ => Watch.Recorded.run

/-! ### Noticing a number -/

/-- **A number that is noticed takes away the follower that has it, and nothing else**, after any
history: the number of each handle leads back to its own container and is that of no other; it
gives the container when it is live there, and a number that is unknown, noticed before or stale
gives nothing. -/
theorem Followers.Run.finishes_live {past : List Change} {f : Followers} (h : Run past f) :
    (∀ key id, f.handles.lookup key = some id ↔ Live past key id) ∧
      (∀ key id, f.handles.lookup key = some id →
        f.keys.lookup id = some key ∧ ∀ k, f.handles.lookup k = some id → k = key) ∧
      ∀ id,
        (∀ key, (f.finish id).1 = some key ↔ f.handles.lookup key = some id) ∧
        (∀ key, (f.finish id).1 = some key → ∀ k, (f.finish id).2.handles.lookup k
          = if k = key then none else f.handles.lookup k) ∧
        ((f.finish id).1 = none ↔ Unknown past id ∨ Noticed past id ∨ Stale past id) ∧
        ((f.finish id).1 = none → (f.finish id).2.handles = f.handles) := by
  have m := h.mirrors
  have hback := m.leadsBack
  refine ⟨m.handles, fun key id hl => ⟨hback key id hl, fun k => hback.eq hl⟩, fun id =>
    ⟨fun key => finish_eq_some_iff hback, fun key hf k => ?_, ?_, handles_finish_of_none⟩⟩
  · have hl := (finish_eq_some_iff hback).mp hf
    rw [lookup_handles_finish hback]
    exact if_congr ⟨hback.eq hl, fun hk => hk ▸ hl⟩ rfl rfl
  · -- nothing is given just when the number is live nowhere, and then there is a reason
    have hnone : (f.finish id).1 = none ↔ ∀ key, ¬ Live past key id := by
      rw [Option.eq_none_iff_forall_ne_some]
      exact forall_congr' fun key => not_congr ((finish_eq_some_iff hback).trans (m.handles key id))
    rw [hnone]
    constructor
    · intro hl
      exact (live_or_over past id).resolve_left fun ⟨key, h⟩ => hl key h
    · exact m.not_live

/-- A container is followed again by task 3, while task 1 that followed it before it was dropped was
not noticed yet; task 0 followed it still earlier. -/
theorem Followers.Run.finishes_live_followed_again :
    ∃ f : Followers,
      Run [.insert ⟨"web", "app"⟩ 3, .abort ⟨"web", "app"⟩, .insert ⟨"web", "proxy"⟩ 2,
        .insert ⟨"web", "app"⟩ 1, .finish 0, .insert ⟨"web", "app"⟩ 0] f ∧
      f.keys.lookup 1 = some ⟨"web", "app"⟩ ∧ f.keys.lookup 3 = some ⟨"web", "app"⟩ ∧
      (f.finish 3).1 = some ⟨"web", "app"⟩ ∧
      (∀ k, (f.finish 3).2.handles.lookup k
        = if k = ⟨"web", "app"⟩ then none else f.handles.lookup k) ∧
      f.handles.lookup ⟨"web", "proxy"⟩ = some 2 ∧
      (f.finish 0).1 = none ∧ (f.finish 7).1 = none ∧
      (f.finish 1).1 = none ∧ (f.finish 1).2.handles = f.handles := by
  have h0 := @Run.insert _ _ ⟨"web", "app"⟩ 0 .start rfl fun _ => not_stands_nil
  have h1 := @Run.insert _ _ ⟨"web", "app"⟩ 1 (h0.finish 0) rfl
    (by simp [Pending, stands_cons, not_stands_nil])
  have h2 := @Run.insert _ _ ⟨"web", "proxy"⟩ 2 h1 rfl
    (by simp [Pending, stands_cons, not_stands_nil])
  have h3 := @Run.insert _ _ ⟨"web", "app"⟩ 3 (h2.abort ⟨"web", "app"⟩) rfl
    (by simp [Pending, stands_cons, not_stands_nil])
  obtain ⟨hlive, hback, hfinish⟩ := h3.finishes_live
  have hl := (hlive ⟨"web", "app"⟩ 3).mpr (live_cons.mpr (.inl rfl))
  have hf := ((hfinish 3).1 ⟨"web", "app"⟩).mpr hl
  have hnoticed := (hfinish 0).2.2.1.mpr (.inr (.inl (by simp [Noticed, stands_cons])))
  have hunknown := (hfinish 7).2.2.1.mpr (.inl (by simp [Unknown]))
  have hstale := (hfinish 1).2.2.1.mpr
    (.inr (.inr ⟨⟨"web", "app"⟩, by simp [Pending, stands_cons], by simp [stands_cons]⟩))
  exact ⟨_, h3, by decide, (hback _ 3 hl).1, hf, (hfinish 3).2.1 _ hf, by decide, hnoticed,
    hunknown, hstale, (hfinish 1).2.2.2 hstale⟩

end Rollout.Kubernetes
