/-
The tables of a watch stay in step with its tasks.

A container has a handle exactly while the task that was started for it is neither aborted nor
noticed to be over, and a task's number leads back to its own container.

* `Coherent` says so of a watch and the tasks that were not noticed yet;
* `Coherent.reapOne`, `Coherent.retain` and `Coherent.offer` keep it through the parts of a step of
  the loop, `Coherent.congr` through the steps of the followers;
* `Coherent.length_live_le` draws the conclusion: a container has one live task at most.
-/
import Mathlib.Data.List.Nodup
import Rollout.Kubernetes.System

namespace Rollout.Kubernetes

/-! ### Tables -/

theorem lookup_filter_key {α β : Type} [BEq α] [LawfulBEq α] (f : α → Bool) (l : List (α × β))
    (k : α) : (l.filter fun p => f p.1).lookup k = if f k then l.lookup k else none := by
  induction l with
  | nil => simp
  | cons p l ih =>
    obtain ⟨k', v⟩ := p
    rw [List.filter_cons]
    by_cases hk : k = k'
    · subst hk
      cases hf : f k
      · simp [hf, ih]
      · simp
    · have hne : (k == k') = false := beq_eq_false_iff_ne.mpr hk
      cases hf : f k' <;> simp [List.lookup_cons, hne, ih]

theorem lookup_eq_some_iff_mem {α β : Type} [BEq α] [LawfulBEq α] {l : List (α × β)}
    (hl : (l.map Prod.fst).Nodup) {k : α} {v : β} : l.lookup k = some v ↔ (k, v) ∈ l := by
  induction l with
  | nil => simp
  | cons p l ih =>
    obtain ⟨k', v'⟩ := p
    rw [List.map_cons, List.nodup_cons] at hl
    rw [List.lookup_cons, List.mem_cons]
    by_cases hk : k = k'
    · subst hk
      have hn : (k, v) ∉ l := fun h => hl.1 (List.mem_map.mpr ⟨(k, v), h, rfl⟩)
      simp [hn, eq_comm]
    · have hne : (k == k') = false := beq_eq_false_iff_ne.mpr hk
      simp [hne, hk, ih hl.2]

theorem nodup_filter_keys {α β : Type} {l : List (α × β)} (hl : (l.map Prod.fst).Nodup)
    (p : α × β → Bool) : ((l.filter p).map Prod.fst).Nodup :=
  hl.sublist (List.filter_sublist.map _)

namespace Followers

variable (f : Followers) (key k : ContainerKey) (id i now : Nat)

theorem lookup_handles_insert :
    (f.insert key id).handles.lookup k = if k = key then some id else f.handles.lookup k := by
  unfold insert
  rw [List.lookup_cons]
  by_cases hk : k = key
  · simp [hk]
  · rw [if_neg hk, beq_eq_false_iff_ne.mpr hk, lookup_filter_key (fun k => k != key)]
    simp [hk]

theorem lookup_keys_insert :
    (f.insert key id).keys.lookup i = if i = id then some key else f.keys.lookup i := by
  unfold insert
  rw [List.lookup_cons]
  by_cases hi : i = id
  · simp [hi]
  · rw [if_neg hi, beq_eq_false_iff_ne.mpr hi, lookup_filter_key (fun i => i != id)]
    simp [hi]

theorem lookup_handles_abort :
    (f.abort key).handles.lookup k = if k = key then none else f.handles.lookup k := by
  unfold abort
  rw [lookup_filter_key (fun k => k != key)]
  by_cases hk : k = key <;> simp [hk]

variable {f key id}

theorem nodup_handles_insert (hf : (f.handles.map Prod.fst).Nodup) :
    ((f.insert key id).handles.map Prod.fst).Nodup := by
  unfold insert
  rw [List.map_cons, List.nodup_cons]
  exact ⟨by simp, nodup_filter_keys hf _⟩

theorem finish_of_live (hk : f.keys.lookup id = some key)
    (hl : f.handles.lookup key = some id) :
    f.finish id = (some key, { f with keys := f.keys.filter (·.1 != id) }.abort key) := by
  simp [finish, hk, hl]

theorem finish_of_stale (hk : f.keys.lookup id = some key)
    (hl : f.handles.lookup key ≠ some id) :
    f.finish id = (none, { f with keys := f.keys.filter (·.1 != id) }) := by
  simp [finish, hk, hl]

end Followers

/-- A failed listing that does not end the watch leaves it as it is. -/
theorem Watch.eq_of_listingFailed {w w' : Watch} {e : ClusterError}
    (h : w.listingFailed e = .ok w') : w = w' := by
  rw [listingFailed] at h
  split at h
  · cases h
  · exact Except.ok.inj h

/-! ### A watch and its tasks -/

/-- The tables of a watch fit the tasks that were started and not noticed to be over yet. -/
structure Coherent (w : Watch) (ws : List Worker) : Prop where
  nodup_handles : (w.followers.handles.map Prod.fst).Nodup
  nodup_ids : (ws.map Worker.id).Nodup
  id_lt : ∀ v ∈ ws, v.id < w.nextId
  lookup_keys : ∀ v ∈ ws, w.followers.keys.lookup v.id = some v.key
  live_iff : ∀ v ∈ ws, v.aborted = false ↔ w.followers.handles.lookup v.key = some v.id
  exists_worker : ∀ key id, w.followers.handles.lookup key = some id →
    ∃ v ∈ ws, v.key = key ∧ v.id = id
  lookup_skipped : ∀ key ∈ w.skipped, w.followers.handles.lookup key = none

theorem eq_of_id_eq {ws : List Worker} (hn : (ws.map Worker.id).Nodup) {u v : Worker}
    (hu : u ∈ ws) (hv : v ∈ ws) (h : u.id = v.id) : u = v :=
  List.inj_on_of_nodup_map hn hu hv h

namespace Coherent

variable {w : Watch} {ws : List Worker}

theorem start : Coherent {} [] where
  nodup_handles := List.nodup_nil
  nodup_ids := List.nodup_nil
  id_lt := by simp
  lookup_keys := by simp
  live_iff := by simp
  exists_worker := by simp
  lookup_skipped := by simp

/-- **A container has one live task at most.** -/
theorem length_live_le {s : System} (h : Coherent s.watch s.workers) (key : ContainerKey) :
    (s.live key).length ≤ 1 := by
  have hnodup : (s.live key).Nodup := h.nodup_ids.of_map.filter _
  have hone : ∀ u ∈ s.live key, ∀ v ∈ s.live key, u = v := by
    intro u hu v hv
    simp only [System.live, List.mem_filter, Bool.and_eq_true, beq_iff_eq,
      Bool.not_eq_true'] at hu hv
    obtain ⟨hmu, hku, hau⟩ := hu
    obtain ⟨hmv, hkv, hav⟩ := hv
    have hlu := (h.live_iff u hmu).mp hau
    have hlv := (h.live_iff v hmv).mp hav
    rw [hku] at hlu
    rw [hkv, hlu, Option.some_inj] at hlv
    exact eq_of_id_eq h.nodup_ids hmu hmv hlv
  match hl : s.live key with
  | [] => simp
  | [_] => simp
  | u :: v :: rest =>
    rw [hl] at hnodup hone
    have huv : u = v := hone u (by simp) v (by simp)
    simp [huv] at hnodup

/-- Only the number, the container and the abortion of a task matter to the tables. -/
theorem congr {us : List Worker} (h : Coherent w ws)
    (hu : us.map (fun v => (v.id, v.key, v.aborted)) = ws.map fun v => (v.id, v.key, v.aborted)) :
    Coherent w us := by
  have hids : us.map Worker.id = ws.map Worker.id := by
    have := congrArg (List.map Prod.fst) hu
    simpa [Function.comp_def] using this
  have hfrom : ∀ u ∈ us, ∃ v ∈ ws, v.id = u.id ∧ v.key = u.key ∧ v.aborted = u.aborted := by
    intro u hm
    have : (u.id, u.key, u.aborted) ∈ ws.map fun v => (v.id, v.key, v.aborted) :=
      hu ▸ List.mem_map_of_mem hm
    simpa using this
  have hto : ∀ v ∈ ws, ∃ u ∈ us, u.id = v.id ∧ u.key = v.key ∧ u.aborted = v.aborted := by
    intro v hm
    have : (v.id, v.key, v.aborted) ∈ us.map fun v => (v.id, v.key, v.aborted) :=
      hu ▸ List.mem_map_of_mem hm
    simpa using this
  refine ⟨h.nodup_handles, hids ▸ h.nodup_ids, ?_, ?_, ?_, ?_, h.lookup_skipped⟩
  · intro u hm
    obtain ⟨v, hv, hid, -, -⟩ := hfrom u hm
    exact hid ▸ h.id_lt v hv
  · intro u hm
    obtain ⟨v, hv, hid, hkey, -⟩ := hfrom u hm
    rw [← hid, ← hkey]
    exact h.lookup_keys v hv
  · intro u hm
    obtain ⟨v, hv, hid, hkey, hab⟩ := hfrom u hm
    rw [← hid, ← hkey, ← hab]
    exact h.live_iff v hv
  · intro key id hl
    obtain ⟨v, hv, hkey, hid⟩ := h.exists_worker key id hl
    obtain ⟨u, hm, huid, hukey, -⟩ := hto v hv
    exact ⟨u, hm, hukey.trans hkey, huid.trans hid⟩

theorem replace (h : Coherent w ws) {v v' : Worker} (hv : v ∈ ws) (hid : v'.id = v.id)
    (hkey : v'.key = v.key) (hab : v'.aborted = v.aborted) :
    Coherent w (ws.map fun u => if u.id = v'.id then v' else u) := by
  refine h.congr ?_
  rw [List.map_map]
  refine List.map_congr_left fun u hu => ?_
  rw [Function.comp_apply]
  split
  · next hi =>
    rw [eq_of_id_eq h.nodup_ids hu hv (hi.trans hid), hid, hkey, hab]
  · rfl

/-! ### The parts of a step of the loop -/

/-- What noticing a task does: its container exits and loses its handle, unless the task was
stopped before. -/
theorem reapOne_eq (h : Coherent w ws) {v : Worker} (hv : v ∈ ws) (now : Nat) :
    w.reapOne v.id now =
      let f := { w.followers with keys := w.followers.keys.filter (·.1 != v.id) }
      if v.aborted then ({ w with followers := f }, [])
      else ({ w with followers := (f.abort v.key).markEnded v.key now }, [.exit v.key]) := by
  have hk := h.lookup_keys v hv
  unfold Watch.reapOne
  cases ha : v.aborted with
  | false =>
    rw [Followers.finish_of_live hk ((h.live_iff v hv).mp ha)]
    rfl
  | true =>
    have hl : w.followers.handles.lookup v.key ≠ some v.id := by
      rw [Ne, ← h.live_iff v hv, ha]
      simp
    rw [Followers.finish_of_stale hk hl]
    rfl

theorem reports_reapOne (h : Coherent w ws) {v : Worker} (hv : v ∈ ws) (now : Nat) :
    (w.reapOne v.id now).2 = if v.aborted then [] else [.exit v.key] := by
  rw [h.reapOne_eq hv]
  cases v.aborted <;> rfl

theorem lookup_handles_reapOne (h : Coherent w ws) {v : Worker} (hv : v ∈ ws) (now : Nat)
    (k : ContainerKey) :
    (w.reapOne v.id now).1.followers.handles.lookup k
      = if k = v.key ∧ v.aborted = false then none else w.followers.handles.lookup k := by
  rw [h.reapOne_eq hv]
  cases v.aborted with
  | false =>
    simp only [and_true]
    exact Followers.lookup_handles_abort _ _ _
  | true => simp

theorem lookup_keys_reapOne (h : Coherent w ws) {v : Worker} (hv : v ∈ ws) (now i : Nat) :
    (w.reapOne v.id now).1.followers.keys.lookup i
      = if i = v.id then none else w.followers.keys.lookup i := by
  have hfilter : (w.followers.keys.filter (·.1 != v.id)).lookup i
      = if i = v.id then none else w.followers.keys.lookup i := by
    rw [lookup_filter_key (fun i => i != v.id)]
    by_cases hi : i = v.id <;> simp [hi]
  rw [h.reapOne_eq hv]
  cases v.aborted <;> exact hfilter

theorem nodup_handles_reapOne (h : Coherent w ws) {v : Worker} (hv : v ∈ ws) (now : Nat) :
    ((w.reapOne v.id now).1.followers.handles.map Prod.fst).Nodup := by
  rw [h.reapOne_eq hv]
  cases v.aborted
  · exact nodup_filter_keys h.nodup_handles _
  · exact h.nodup_handles

theorem rest_reapOne (w : Watch) (i now : Nat) :
    (w.reapOne i now).1.skipped = w.skipped ∧ (w.reapOne i now).1.nextId = w.nextId := by
  unfold Watch.reapOne
  split <;> exact ⟨rfl, rfl⟩

/-- A task that is noticed leaves the tables. -/
theorem reapOne (h : Coherent w ws) {v : Worker} (hv : v ∈ ws) (now : Nat) :
    Coherent (w.reapOne v.id now).1 (ws.filter (·.id != v.id)) := by
  obtain ⟨hskip, hnext⟩ := rest_reapOne w v.id now
  have hrest : ∀ u ∈ ws.filter (·.id != v.id), u ∈ ws ∧ u.id ≠ v.id := by
    intro u hu
    simpa using List.mem_filter.mp hu
  refine ⟨h.nodup_handles_reapOne hv now, h.nodup_ids.sublist (List.filter_sublist.map _),
    ?_, ?_, ?_, ?_, ?_⟩
  · intro u hu
    rw [hnext]
    exact h.id_lt u (hrest u hu).1
  · intro u hu
    rw [h.lookup_keys_reapOne hv, if_neg (hrest u hu).2]
    exact h.lookup_keys u (hrest u hu).1
  · intro u hu
    obtain ⟨hm, hne⟩ := hrest u hu
    rw [h.lookup_handles_reapOne hv, h.live_iff u hm]
    split
    · -- the container of the task that is noticed: its handle was that task's
      next hc =>
      have hl := (h.live_iff v hv).mp hc.2
      rw [hc.1, hl]
      simp [Ne.symm hne]
    · exact Iff.rfl
  · intro key id hl
    rw [h.lookup_handles_reapOne hv] at hl
    split at hl
    · simp at hl
    · next hc =>
      obtain ⟨u, hm, hkey, hid⟩ := h.exists_worker key id hl
      refine ⟨u, List.mem_filter.mpr ⟨hm, ?_⟩, hkey, hid⟩
      rw [bne_iff_ne]
      intro he
      have huv := eq_of_id_eq h.nodup_ids hm hv he
      subst huv
      exact hc ⟨hkey.symm, (h.live_iff u hm).mpr (by rw [hkey, hid]; exact hl)⟩
  · intro key hk
    rw [hskip] at hk
    rw [h.lookup_handles_reapOne hv]
    split
    · rfl
    · exact h.lookup_skipped key hk

theorem lookup_handles_retain (w : Watch) (current : List ContainerKey) (k : ContainerKey) :
    (w.retain current).1.followers.handles.lookup k
      = if current.contains k then w.followers.handles.lookup k else none :=
  lookup_filter_key (fun k => current.contains k) _ _

/-- Containers that are gone leave the tables, and their tasks are stopped. -/
theorem retain (h : Coherent w ws) (current : List ContainerKey) :
    Coherent (w.retain current).1
      (ws.map (Worker.stopIn (w.followers.handles.filter fun p => !current.contains p.1))) := by
  -- a live task is stopped exactly when its own container is gone
  have hstop : ∀ v ∈ ws, v.aborted = false →
      ((w.followers.handles.filter fun p => !current.contains p.1).any (·.2 == v.id)
        = !current.contains v.key) := by
    intro v hv ha
    have hl := (h.live_iff v hv).mp ha
    rw [Bool.eq_iff_iff, List.any_eq_true]
    constructor
    · rintro ⟨⟨k, i⟩, hm, hi⟩
      obtain ⟨hm, hgone⟩ := List.mem_filter.mp hm
      obtain rfl : i = v.id := by simpa using hi
      obtain ⟨u, hu, hkey, hid⟩ :=
        h.exists_worker k v.id ((lookup_eq_some_iff_mem h.nodup_handles).mpr hm)
      rw [← eq_of_id_eq h.nodup_ids hu hv hid, hkey]
      exact hgone
    · intro hgone
      exact ⟨(v.key, v.id), List.mem_filter.mpr
        ⟨(lookup_eq_some_iff_mem h.nodup_handles).mp hl, hgone⟩, by simp⟩
  have hids : (ws.map (Worker.stopIn (w.followers.handles.filter
      fun p => !current.contains p.1))).map Worker.id = ws.map Worker.id := by
    simp [Function.comp_def, Worker.stopIn]
  refine ⟨nodup_filter_keys h.nodup_handles _, hids ▸ h.nodup_ids, ?_, ?_, ?_, ?_, ?_⟩
  · intro u hu
    obtain ⟨v, hv, rfl⟩ := List.mem_map.mp hu
    exact h.id_lt v hv
  · intro u hu
    obtain ⟨v, hv, rfl⟩ := List.mem_map.mp hu
    exact h.lookup_keys v hv
  · intro u hu
    obtain ⟨v, hv, rfl⟩ := List.mem_map.mp hu
    rw [lookup_handles_retain]
    have hlive := h.live_iff v hv
    cases ha : v.aborted with
    | false =>
      rw [ha] at hlive
      simp only [Worker.stopIn, ha, hstop v hv ha, hlive.mp rfl, Bool.false_or]
      cases current.contains v.key <;> simp
    | true =>
      rw [ha] at hlive
      have hl : w.followers.handles.lookup v.key ≠ some v.id := by
        rw [Ne, ← hlive]
        simp
      simp only [Worker.stopIn, ha, Bool.true_or]
      split <;> simp [hl]
  · intro key id hl
    rw [lookup_handles_retain] at hl
    split at hl
    · obtain ⟨v, hv, hkey, hid⟩ := h.exists_worker key id hl
      exact ⟨_, List.mem_map_of_mem hv, hkey, hid⟩
    · simp at hl
  · intro key hk
    rw [lookup_handles_retain, h.lookup_skipped key (List.mem_filter.mp hk).1]
    split <;> rfl

/-- A container that is offered gets a task when it is admitted. -/
theorem offer (h : Coherent w ws) (accept : ContainerKey → Bool) (now : Nat)
    (key : ContainerKey) :
    Coherent (w.offer accept now key).1
      (ws ++ (w.offer accept now key).2.2.map (Worker.ofStart now)) := by
  unfold Watch.offer
  split
  · simpa using h
  next hknown =>
  have hfree : w.followers.handles.lookup key = none := by
    simp only [Followers.contains, Bool.or_eq_true, not_or, Bool.not_eq_true,
      Option.isSome_eq_false_iff, Option.isNone_iff_eq_none] at hknown
    exact hknown.1
  split
  · -- admitted: the new task has a number of its own
    have hold : ∀ v ∈ ws, v.id ≠ w.nextId := fun v hv => Nat.ne_of_lt (h.id_lt v hv)
    simp only [List.map_cons, List.map_nil]
    refine ⟨Followers.nodup_handles_insert h.nodup_handles, ?_, ?_, ?_, ?_, ?_, ?_⟩
    · rw [List.map_append, List.nodup_append]
      refine ⟨h.nodup_ids, by simp, ?_⟩
      rintro i hi j hj
      obtain ⟨v, hv, rfl⟩ := List.mem_map.mp hi
      obtain rfl : j = w.nextId := by simpa [Worker.ofStart] using hj
      exact hold v hv
    · intro v hv
      rcases List.mem_append.mp hv with hv | hv
      · exact Nat.lt_succ_of_lt (h.id_lt v hv)
      · obtain rfl : v = _ := List.mem_singleton.mp hv
        exact Nat.lt_succ_self w.nextId
    · intro v hv
      rw [Followers.lookup_keys_insert]
      rcases List.mem_append.mp hv with hv | hv
      · rw [if_neg (hold v hv)]
        exact h.lookup_keys v hv
      · obtain rfl : v = _ := List.mem_singleton.mp hv
        exact if_pos rfl
    · intro v hv
      rw [Followers.lookup_handles_insert]
      rcases List.mem_append.mp hv with hv | hv
      · rw [h.live_iff v hv]
        split
        · next hk =>
          rw [hk, hfree]
          simp [Ne.symm (hold v hv)]
        · exact Iff.rfl
      · obtain rfl : v = _ := List.mem_singleton.mp hv
        simp [Worker.ofStart]
    · intro k id hl
      rw [Followers.lookup_handles_insert] at hl
      split at hl
      · next hk =>
        exact ⟨_, List.mem_append_right _ (List.mem_singleton_self _), hk.symm,
          Option.some_inj.mp hl⟩
      · obtain ⟨v, hv, hkey, hid⟩ := h.exists_worker k id hl
        exact ⟨v, List.mem_append_left _ hv, hkey, hid⟩
    · intro k hk
      rw [Followers.lookup_handles_insert, if_neg]
      · exact h.lookup_skipped k hk
      · rintro rfl
        simp [hk] at hknown
  · -- refused: the container has no handle, so it may be skipped
    simp only [List.map_nil, List.append_nil]
    refine ⟨h.nodup_handles, h.nodup_ids, h.id_lt, h.lookup_keys, h.live_iff, h.exists_worker, ?_⟩
    intro k hk
    rcases List.mem_cons.mp hk with rfl | hk
    · exact hfree
    · exact h.lookup_skipped k hk

end Coherent

end Rollout.Kubernetes
