/-
What is called back about one container, over a whole run of a watch.

* `AllClosed` and `LastOpen` say what a word of blocks is: a refused entry, or an admitted one, its
  lines, at most one error and the exit, where the last block may still be open;
* `Told` ties the callbacks so far to the tables of the watch and to the follower's state, and each
  part of a step keeps it (`Told.reapOne`, `Told.retain`, `Told.offer`, `Told.setWorker`);
* `System.Step.accounted` and `System.Run.accounted` keep it over the steps and over a whole run;
* `System.Run.callbacks_isWord` draws the conclusion.

Design notes: of a trace only the callbacks of the container and the listings without it matter, so
the invariant speaks of a list of signs.  That a refusal stands is then that it is the last sign.
-/
import Mathlib.Data.List.Chain
import Rollout.Proofs.Kubernetes.Followers

namespace Rollout.Kubernetes

/-! ### Words of blocks -/

/-- The callbacks between an entry and the end of its block. -/
inductive Block : List Callback → Prop where
  | refused : Block [.enter false]
  | admitted (lines : List String) (error : Option String) :
      Block (.enter true :: (lines.map .event ++ error.toList.map .error) ++ [.exit])

/-- Blocks that are all at their end. -/
def AllClosed (cs : List Callback) : Prop :=
  ∃ blocks : List (List Callback), (∀ b ∈ blocks, Block b) ∧ cs = blocks.flatten

/-- Blocks of which the last, an admitted one, is not at its end; it may have had an error. -/
def LastOpen (error : Option String) (cs : List Callback) : Prop :=
  ∃ (before : List Callback) (lines : List String), AllClosed before ∧
    cs = before ++ .enter true :: (lines.map .event ++ error.toList.map .error)

/-- A word of blocks. -/
def IsWord (cs : List Callback) : Prop :=
  AllClosed cs ∨ ∃ error, LastOpen error cs

theorem allClosed_nil : AllClosed [] := ⟨[], by simp, rfl⟩

theorem AllClosed.append_block {cs b : List Callback} (h : AllClosed cs) (hb : Block b) :
    AllClosed (cs ++ b) := by
  obtain ⟨blocks, hblocks, rfl⟩ := h
  refine ⟨blocks ++ [b], ?_, by simp⟩
  intro b' hb'
  rcases List.mem_append.mp hb' with hb' | hb'
  · exact hblocks b' hb'
  · rwa [List.mem_singleton.mp hb']

theorem AllClosed.enter {cs : List Callback} (h : AllClosed cs) :
    LastOpen none (cs ++ [.enter true]) :=
  ⟨cs, [], h, rfl⟩

theorem LastOpen.event {cs : List Callback} (h : LastOpen none cs) (line : String) :
    LastOpen none (cs ++ [.event line]) := by
  obtain ⟨before, lines, hb, rfl⟩ := h
  exact ⟨before, lines ++ [line], hb, by simp⟩

theorem LastOpen.error {cs : List Callback} (h : LastOpen none cs) (text : String) :
    LastOpen (some text) (cs ++ [.error text]) := by
  obtain ⟨before, lines, hb, rfl⟩ := h
  exact ⟨before, lines, hb, by simp⟩

theorem LastOpen.exit {cs : List Callback} {error : Option String} (h : LastOpen error cs) :
    AllClosed (cs ++ [.exit]) := by
  obtain ⟨before, lines, hb, rfl⟩ := h
  rw [List.append_assoc]
  exact hb.append_block (.admitted lines error)

/-! ### Signs -/

/-- What matters of a trace for one container. -/
inductive Sign where
  | call (c : Callback)
  /-- A listing succeeded without the container. -/
  | missing
  deriving DecidableEq

def Seen.sign (key : ContainerKey) : Seen → Option Sign
  | .call k c => if k = key then some (.call c) else none
  | .listing current => if current.contains key then none else some .missing
  | .asks .. | .meets .. => none

/-- The signs of what was seen. -/
def signs (key : ContainerKey) (seen : List Seen) : List Sign :=
  seen.filterMap (Seen.sign key)

def Sign.callback? : Sign → Option Callback
  | call c => some c
  | missing => none

theorem signs_append (key : ContainerKey) (xs ys : List Seen) :
    signs key (xs ++ ys) = signs key xs ++ signs key ys :=
  List.filterMap_append

theorem callbacks_eq (trace : Trace) (key : ContainerKey) :
    trace.callbacks key = (signs key (trace.map Prod.snd)).filterMap Sign.callback? := by
  unfold Trace.callbacks signs
  rw [List.filterMap_map, List.filterMap_filterMap]
  congr 1
  funext ⟨t, x⟩
  cases x <;> simp [Seen.sign] <;> split <;> simp [Sign.callback?]

/-- After a refusal no callback comes next. -/
def Heeded (a b : Sign) : Prop := a = .call (.enter false) → b = .missing

theorem isChain_concat {S : List Sign} {x : Sign} (h : S.IsChain Heeded)
    (hx : S.getLast? = some (.call (.enter false)) → x = .missing) :
    (S ++ [x]).IsChain Heeded := by
  rw [List.isChain_append]
  refine ⟨h, List.isChain_singleton x, ?_⟩
  intro a ha b hb hab
  rw [Option.mem_def] at ha
  obtain rfl : x = b := by simpa using hb
  exact hx (hab ▸ ha)

/-- Exits of different containers give each of them one sign. -/
theorem signs_exits {l : List (ContainerKey × Nat)} (hl : (l.map Prod.fst).Nodup)
    (key : ContainerKey) :
    signs key (l.map fun p => .call p.1 .exit)
      = if (l.lookup key).isSome then [.call .exit] else [] := by
  induction l with
  | nil => rfl
  | cons p l ih =>
    obtain ⟨k, i⟩ := p
    rw [List.map_cons, List.nodup_cons] at hl
    rw [List.lookup_cons, List.map_cons, signs, List.filterMap_cons, ← signs, ih hl.2]
    by_cases hk : k = key
    · subst hk
      have hn : l.lookup k = none := by
        rw [List.lookup_eq_none_iff]
        intro p hp
        rw [bne_iff_ne]
        rintro rfl
        exact hl.1 (List.mem_map.mpr ⟨p, hp, rfl⟩)
      simp [Seen.sign, hn]
    · rw [show (key == k) = false from beq_eq_false_iff_ne.mpr (Ne.symm hk)]
      simp [Seen.sign, hk]

theorem signs_call (key k : ContainerKey) (c : Callback) :
    signs key [.call k c] = if k = key then [.call c] else [] := by
  by_cases hk : k = key <;> simp [signs, Seen.sign, hk]

theorem signs_listing (key : ContainerKey) (current : List ContainerKey) (seen : List Seen) :
    signs key (.listing current :: seen)
      = (if current.contains key then [] else [.missing]) ++ signs key seen := by
  rw [signs, List.filterMap_cons, ← signs, Seen.sign]
  cases current.contains key <;> rfl

theorem signs_follower (key k : ContainerKey) (e : LogEvent) (reports : List FollowerReport) :
    signs key (.meets k e :: reports.map fun r => .call k r.callback)
      = if k = key then reports.map fun r => .call r.callback else [] := by
  by_cases hk : k = key <;>
    simp [signs, List.filterMap_cons, Seen.sign, List.filterMap_map, Function.comp_def, hk]

/-- A container exits when it had a handle and is not listed any more, in whatever order. -/
theorem signs_retain {w : Watch} (hn : (w.followers.handles.map Prod.fst).Nodup)
    (current : List ContainerKey) {exits : List Report} (he : exits.Perm (w.retain current).2)
    (key : ContainerKey) :
    signs key (exits.map Report.seen)
      = if (if current.contains key then none else w.followers.handles.lookup key).isSome
        then [.call .exit] else [] := by
  have hgone := signs_exits (nodup_filter_keys hn fun p => !current.contains p.1) key
  rw [lookup_filter_key (fun k => !current.contains k)] at hgone
  have hmap : (w.retain current).2.map Report.seen
      = (w.followers.handles.filter fun p => !current.contains p.1).map
        fun p => .call p.1 .exit := by
    simp [Watch.retain, Function.comp_def, Report.seen]
  -- one sign at most is the same in every order
  have hperm : (signs key (exits.map Report.seen)).Perm
      (signs key ((w.retain current).2.map Report.seen)) :=
    (he.map Report.seen).filterMap (Seen.sign key)
  rw [hmap, hgone] at hperm
  cases hcur : current.contains key <;> rw [hcur] at hperm <;>
    cases hl : w.followers.handles.lookup key <;> rw [hl] at hperm <;>
    simpa using hperm

/-! ### The callbacks so far -/

/-- What was called back about a container fits what the watch knows of it. -/
structure Told (w : Watch) (ws : List Worker) (key : ContainerKey) (S : List Sign) : Prop where
  closed : w.followers.handles.lookup key = none → AllClosed (S.filterMap Sign.callback?)
  opened : ∀ v ∈ ws, v.key = key → v.aborted = false →
    ∃ error, LastOpen error (S.filterMap Sign.callback?) ∧ (v.state ≠ .ended → error = none)
  standing : S.getLast? = some (.call (.enter false)) → key ∈ w.skipped
  heeded : S.IsChain Heeded

namespace Told

variable {w w' : Watch} {ws ws' : List Worker} {key : ContainerKey} {S : List Sign}

/-- A step that is not about the container keeps what was told of it. -/
theorem frame (h : Told w ws key S)
    (hl : w'.followers.handles.lookup key = w.followers.handles.lookup key)
    (hs : key ∈ w.skipped → key ∈ w'.skipped)
    (hw : ∀ u ∈ ws', u.key = key → u.aborted = false →
      ∃ v ∈ ws, v.key = key ∧ v.aborted = false ∧ v.state = u.state) : Told w' ws' key S := by
  refine ⟨fun hn => h.closed (hl ▸ hn), ?_, fun hlast => hs (h.standing hlast), h.heeded⟩
  intro u hu hkey hab
  obtain ⟨v, hv, hvkey, hvab, hstate⟩ := hw u hu hkey hab
  rw [← hstate]
  exact h.opened v hv hvkey hvab

/-- No refusal stands while a container is followed. -/
theorem not_standing (h : Told w ws key S) (hc : Coherent w ws) {v : Worker} (hv : v ∈ ws)
    (hk : v.key = key) (ha : v.aborted = false) :
    S.getLast? ≠ some (.call (.enter false)) := by
  intro hlast
  have hfree := hc.lookup_skipped key (h.standing hlast)
  rw [← hk, (hc.live_iff v hv).mp ha] at hfree
  exact absurd hfree (by simp)

theorem reapOne (h : Told w ws key S) (hc : Coherent w ws) {v : Worker} (hv : v ∈ ws)
    (now : Nat) :
    Told (w.reapOne v.id now).1 (ws.filter (·.id != v.id)) key
      (S ++ signs key ((w.reapOne v.id now).2.map Report.seen)) := by
  have hskip := (Coherent.rest_reapOne w v.id now).1
  have hrest : ∀ u ∈ ws.filter (·.id != v.id), u ∈ ws ∧ u.id ≠ v.id := by
    intro u hu
    simpa using List.mem_filter.mp hu
  have hlookup := hc.lookup_handles_reapOne hv now key
  rw [hc.reports_reapOne hv]
  by_cases hexit : key = v.key ∧ v.aborted = false
  · obtain ⟨rfl, ha⟩ := hexit
    rw [if_pos ⟨rfl, ha⟩] at hlookup
    obtain ⟨error, hopen, -⟩ := h.opened v hv rfl ha
    simp only [ha, Bool.false_eq_true, if_false, List.map_cons, List.map_nil, Report.seen,
      signs_call, if_true]
    refine ⟨?_, ?_, by simp, ?_⟩
    · intro _
      rw [List.filterMap_append]
      exact hopen.exit
    · -- another live task of the container would have the same handle
      intro u hu hkey hab
      obtain ⟨hm, hne⟩ := hrest u hu
      have hlu := (hc.live_iff u hm).mp hab
      rw [hkey, (hc.live_iff v hv).mp ha, Option.some_inj] at hlu
      exact absurd hlu.symm hne
    · exact isChain_concat h.heeded fun hlast => absurd hlast (h.not_standing hc hv rfl ha)
  · rw [if_neg hexit] at hlookup
    have hnone : signs key ((if v.aborted = true then [] else [Report.exit v.key]).map
        Report.seen) = [] := by
      cases ha : v.aborted with
      | false =>
        have hne : v.key ≠ key := fun hk => hexit ⟨hk.symm, ha⟩
        simp [Report.seen, signs_call, hne]
      | true => rfl
    rw [hnone, List.append_nil]
    refine h.frame hlookup (fun hk => hskip ▸ hk) ?_
    intro u hu hkey hab
    exact ⟨u, (hrest u hu).1, hkey, hab, rfl⟩

/-- A listing without the container ends what was told of it; one with the container does not
matter. -/
theorem retain (h : Told w ws key S) (hc : Coherent w ws) (current : List ContainerKey)
    {exits : List Report} (he : exits.Perm (w.retain current).2) :
    Told (w.retain current).1
      (ws.map (Worker.stopIn (w.followers.handles.filter fun p => !current.contains p.1))) key
      (S ++ signs key (.listing current :: exits.map Report.seen)) := by
  have hlookup := Coherent.lookup_handles_retain w current key
  have hlive : ∀ u ∈ ws.map (Worker.stopIn (w.followers.handles.filter
      fun p => !current.contains p.1)), u.key = key → u.aborted = false →
      ∃ v ∈ ws, v.key = key ∧ v.aborted = false ∧ v.state = u.state := by
    intro u hu hkey hab
    obtain ⟨v, hv, rfl⟩ := List.mem_map.mp hu
    exact ⟨v, hv, hkey, (Bool.or_eq_false_iff.mp hab).1, rfl⟩
  rw [signs_listing, signs_retain hc.nodup_handles current he]
  cases hcur : current.contains key with
  | true =>
    rw [hcur, if_pos rfl] at hlookup
    simp only [if_true, Option.isSome_none, Bool.false_eq_true, if_false, List.append_nil]
    exact h.frame hlookup
      (fun hk => List.mem_filter.mpr ⟨hk, hcur⟩) hlive
  | false =>
    rw [hcur, if_neg (by simp)] at hlookup
    have hchain : (S ++ [Sign.missing]).IsChain Heeded := isChain_concat h.heeded fun _ => rfl
    have hnolive : ∀ u ∈ ws.map (Worker.stopIn (w.followers.handles.filter
        fun p => !current.contains p.1)), u.key = key → u.aborted = false → False := by
      intro u hu hkey hab
      have hl := ((hc.retain current).live_iff u hu).mp hab
      rw [hkey, hlookup] at hl
      exact absurd hl (by simp)
    simp only [Bool.false_eq_true, if_false]
    cases hl : w.followers.handles.lookup key with
    | none =>
      refine ⟨?_, fun u hu hkey hab => (hnolive u hu hkey hab).elim, by simp, by simpa using hchain⟩
      intro _
      simpa [List.filterMap_cons, Sign.callback?] using h.closed hl
    | some i =>
      obtain ⟨v, hv, hkey, hid⟩ := hc.exists_worker key i hl
      have hab : v.aborted = false := (hc.live_iff v hv).mpr (by rw [hkey, hid, hl])
      obtain ⟨error, hopen, -⟩ := h.opened v hv hkey hab
      refine ⟨?_, fun u hu hkey hab => (hnolive u hu hkey hab).elim, by simp, ?_⟩
      · intro _
        simpa [List.filterMap_cons, Sign.callback?] using hopen.exit
      · have hexit := isChain_concat (x := .call .exit) hchain (by simp)
        simpa using hexit

/-- What a follower meets adds a line or an error to the open block, or nothing. -/
theorem lastOpen_step {cs : List Callback} (h : LastOpen none cs) {state : FollowerState}
    {e : LogEvent} (he : state.expects e) :
    ∃ error, LastOpen error (cs ++ (state.step e).2.map FollowerReport.callback) ∧
      ((state.step e).1 ≠ .ended → error = none) := by
  cases state <;> cases e <;> simp only [FollowerState.expects, Bool.false_eq_true] at he
  case opening.opened => exact ⟨none, by simpa [FollowerState.step] using h, fun _ => rfl⟩
  case opening.openFailed e => exact ⟨some e.message, h.error e.message, fun hs => absurd rfl hs⟩
  case reading.line text => exact ⟨none, h.event text, fun _ => rfl⟩
  case reading.failed e => exact ⟨some e.message, h.error e.message, fun hs => absurd rfl hs⟩
  case reading.finished => exact ⟨none, by simpa [FollowerState.step] using h, fun _ => rfl⟩

theorem reports_step (state : FollowerState) (e : LogEvent) :
    (state.step e).2 = [] ∨ ∃ r, (state.step e).2 = [r] := by
  cases state <;> cases e <;> simp [FollowerState.step]

/-- A container that is offered is told of when it has no follower and no refusal stands. -/
theorem offer (h : Told w ws key S) (hc : Coherent w ws) (accept : ContainerKey → Bool)
    (now : Nat) (k : ContainerKey) :
    Told (w.offer accept now k).1 (ws ++ (w.offer accept now k).2.2.map (Worker.ofStart now)) key
      (S ++ signs key ((w.offer accept now k).2.1.map Report.seen)) := by
  unfold Watch.offer
  split
  · simpa [signs] using h
  next hknown =>
  simp only [Followers.contains, Bool.or_eq_true, not_or, Bool.not_eq_true,
    Option.isSome_eq_false_iff, Option.isNone_iff_eq_none] at hknown
  obtain ⟨hfree, hskip⟩ := hknown
  have hnew : k ∉ w.skipped := by simpa using hskip
  by_cases hk : k = key
  · subst hk
    have hlast : S.getLast? ≠ some (.call (.enter false)) := fun hlast => hnew (h.standing hlast)
    have hchain : ∀ b, (S ++ [Sign.call (.enter b)]).IsChain Heeded := fun b =>
      isChain_concat h.heeded fun hl => absurd hl hlast
    have hnolive : ∀ v ∈ ws, v.key = k → v.aborted = false → False := by
      intro v hv hkey hab
      have hl := (hc.live_iff v hv).mp hab
      rw [hkey, hfree] at hl
      exact absurd hl (by simp)
    split
    · simp only [List.map_cons, List.map_nil, Report.seen, signs_call, if_true]
      refine ⟨?_, ?_, by simp, hchain true⟩
      · intro hn
        rw [Followers.lookup_handles_insert] at hn
        simp at hn
      · intro v hv hkey hab
        rcases List.mem_append.mp hv with hv | hv
        · exact (hnolive v hv hkey hab).elim
        · refine ⟨none, ?_, fun _ => rfl⟩
          rw [List.filterMap_append]
          exact (h.closed hfree).enter
    · simp only [List.map_cons, List.map_nil, Report.seen, signs_call, if_true, List.append_nil]
      refine ⟨?_, ?_, fun _ => by simp, hchain false⟩
      · intro _
        rw [List.filterMap_append]
        exact (h.closed hfree).append_block .refused
      · intro v hv hkey hab
        exact (hnolive v hv hkey hab).elim
  · -- another container is offered
    split
    · simp only [List.map_cons, List.map_nil, Report.seen, signs_call, if_neg hk,
        List.append_nil]
      refine h.frame ?_ (fun hs => hs) ?_
      · rw [Followers.lookup_handles_insert, if_neg (Ne.symm hk)]
      · intro u hu hkey hab
        rcases List.mem_append.mp hu with hu | hu
        · exact ⟨u, hu, hkey, hab, rfl⟩
        · obtain rfl := List.mem_singleton.mp hu
          exact absurd hkey hk
    · simp only [List.map_cons, List.map_nil, Report.seen, signs_call, if_neg hk,
        List.append_nil]
      exact h.frame rfl (fun hs => List.mem_cons_of_mem _ hs)
        fun u hu hkey hab => ⟨u, hu, hkey, hab, rfl⟩

/-- A follower takes a step: only its own container may be told of something, and its block stays
open. -/
theorem setWorker (h : Told w ws key S) (hc : Coherent w ws) {v : Worker} (hv : v ∈ ws)
    (ha : v.aborted = false) {e : LogEvent} (he : v.state.expects e) (v' : Worker)
    (hid : v'.id = v.id) (hkey : v'.key = v.key) (hstate : v'.state = (v.state.step e).1) :
    Told w (ws.map fun u => if u.id = v'.id then v' else u) key
      (S ++ signs key
        (.meets v.key e :: (v.state.step e).2.map fun r => .call v.key r.callback)) := by
  have hmem : ∀ u' ∈ ws.map (fun u => if u.id = v'.id then v' else u),
      u' = v' ∨ u' ∈ ws ∧ u'.id ≠ v.id := by
    intro u' hu'
    obtain ⟨u, hu, rfl⟩ := List.mem_map.mp hu'
    by_cases hi : u.id = v'.id
    · exact .inl (if_pos hi)
    · rw [if_neg hi]
      exact .inr ⟨hu, hid ▸ hi⟩
  by_cases hk : v.key = key
  · subst hk
    have hended : v.state ≠ .ended := by
      intro hs
      cases e <;> simp [hs, FollowerState.expects] at he
    obtain ⟨error, hopen, hnone⟩ := h.opened v hv rfl ha
    rw [hnone hended] at hopen
    obtain ⟨error', hopen', hnone'⟩ := lastOpen_step hopen he
    have hlast := h.not_standing hc hv rfl ha
    rw [signs_follower, if_pos rfl]
    refine ⟨?_, ?_, ?_, ?_⟩
    · intro hn
      rw [(hc.live_iff v hv).mp ha] at hn
      exact absurd hn (by simp)
    · intro u' hu' hukey huab
      refine ⟨error', ?_, ?_⟩
      · rw [List.filterMap_append, List.filterMap_map]
        simpa [Function.comp_def, Sign.callback?] using hopen'
      · rcases hmem u' hu' with rfl | ⟨hu, hne⟩
        · rw [hstate]
          exact hnone'
        · have hl := (hc.live_iff u' hu).mp huab
          rw [hukey, (hc.live_iff v hv).mp ha, Option.some_inj] at hl
          exact absurd hl.symm hne
    · rcases reports_step v.state e with hr | ⟨r, hr⟩
      · rw [hr, List.map_nil, List.append_nil]
        exact h.standing
      · rw [hr]
        cases r <;> simp [FollowerReport.callback]
    · rcases reports_step v.state e with hr | ⟨r, hr⟩
      · rw [hr, List.map_nil, List.append_nil]
        exact h.heeded
      · rw [hr]
        exact isChain_concat h.heeded fun hs => absurd hs hlast
  · rw [signs_follower, if_neg hk, List.append_nil]
    refine h.frame rfl (fun hs => hs) ?_
    intro u' hu' hukey huab
    rcases hmem u' hu' with rfl | ⟨hu, -⟩
    · exact absurd (hkey.symm.trans hukey) hk
    · exact ⟨u', hu, hukey, huab, rfl⟩

end Told

/-! ### The parts of a step of the loop, one container after another -/

/-- What noticing one task keeps, noticing several keeps. -/
theorem Coherent.reap_induction {P : Watch → List Worker → List Seen → Prop}
    (hP : ∀ {w ws seen v t}, Coherent w ws → v ∈ ws → v.endedAt = some t → P w ws seen →
      P (w.reapOne v.id t).1 (ws.filter (·.id != v.id))
        (seen ++ (w.reapOne v.id t).2.map Report.seen))
    {w : Watch} {ws : List Worker} {seen : List Seen} (done : List (Nat × Nat))
    (hn : (done.map Prod.fst).Nodup)
    (hd : ∀ p ∈ done, ∃ v ∈ ws, v.id = p.1 ∧ v.endedAt = some p.2)
    (hc : Coherent w ws) (h : P w ws seen) :
    Coherent (w.reap done).1 (ws.filter fun v => v.id ∉ done.map Prod.fst) ∧
      P (w.reap done).1 (ws.filter fun v => v.id ∉ done.map Prod.fst)
        (seen ++ (w.reap done).2.map Report.seen) := by
  induction done generalizing w ws seen with
  | nil => simpa [Watch.reap] using ⟨hc, h⟩
  | cons p done ih =>
    obtain ⟨i, now⟩ := p
    rw [List.map_cons, List.nodup_cons] at hn
    obtain ⟨v, hv, rfl, hend⟩ := hd (i, now) (List.mem_cons_self)
    have hrest := ih hn.2 (fun q hq => by
      obtain ⟨u, hu, hid, huend⟩ := hd q (List.mem_cons_of_mem _ hq)
      refine ⟨u, List.mem_filter.mpr ⟨hu, ?_⟩, hid, huend⟩
      rw [bne_iff_ne, hid]
      exact fun he => hn.1 (List.mem_map.mpr ⟨q, hq, he⟩)) (hc.reapOne hv now) (hP hc hv hend h)
    have hfilter : (ws.filter fun u => u.id ∉ ((v.id, now) :: done).map Prod.fst)
        = ws.filter fun u => decide (u.id ∉ done.map Prod.fst) && u.id != v.id := by
      refine List.filter_congr fun u _ => ?_
      rw [Bool.eq_iff_iff]
      simp only [List.map_cons, List.mem_cons, not_or, decide_eq_true_eq, Bool.and_eq_true,
        bne_iff_ne, and_comm]
    rw [List.filter_filter, List.append_assoc, ← List.map_append] at hrest
    rw [hfilter]
    exact hrest

/-- What offering one container keeps, offering several keeps. -/
theorem Coherent.offerAll_induction {P : Watch → List Worker → List Seen → Prop}
    (accept : ContainerKey → Bool) (now : Nat)
    (hP : ∀ {w ws seen} (k : ContainerKey), Coherent w ws → P w ws seen →
      P (w.offer accept now k).1 (ws ++ (w.offer accept now k).2.2.map (Worker.ofStart now))
        (seen ++ (w.offer accept now k).2.1.map Report.seen))
    {w : Watch} {ws : List Worker} {seen : List Seen} (current : List ContainerKey)
    (hc : Coherent w ws) (h : P w ws seen) :
    Coherent (w.offerAll accept now current).1
        (ws ++ (w.offerAll accept now current).2.2.map (Worker.ofStart now)) ∧
      P (w.offerAll accept now current).1
        (ws ++ (w.offerAll accept now current).2.2.map (Worker.ofStart now))
        (seen ++ (w.offerAll accept now current).2.1.map Report.seen) := by
  induction current generalizing w ws seen with
  | nil => simpa [Watch.offerAll] using ⟨hc, h⟩
  | cons key rest ih =>
    have hrest := ih (hc.offer accept now key) (hP key hc h)
    rw [List.append_assoc, List.append_assoc, ← List.map_append, ← List.map_append] at hrest
    exact hrest

theorem System.map_fst_ended (s : System) :
    s.ended.map Prod.fst = (s.workers.filter (·.endedAt.isSome)).map Worker.id := by
  unfold ended
  induction s.workers with
  | nil => rfl
  | cons v ws ih =>
    rw [List.filterMap_cons, List.filter_cons]
    cases hv : v.endedAt <;> simp [ih]

/-- The tasks that are noticed: each of them once, with its end, and none that goes on. -/
theorem System.noticed {s : System} (hn : (s.workers.map Worker.id).Nodup)
    {done : List (Nat × Nat)} (hd : done.Perm s.ended) :
    (done.map Prod.fst).Nodup ∧
      (∀ p ∈ done, ∃ v ∈ s.workers, v.id = p.1 ∧ v.endedAt = some p.2) ∧
      (s.workers.filter fun v => v.id ∉ done.map Prod.fst)
        = s.workers.filter (·.endedAt.isNone) := by
  have hmem : ∀ p, p ∈ done ↔ ∃ v ∈ s.workers, v.id = p.1 ∧ v.endedAt = some p.2 := by
    rintro ⟨i, t⟩
    simp [hd.mem_iff, ended, and_comm]
  refine ⟨?_, fun p hp => (hmem p).mp hp, List.filter_congr fun v hv => ?_⟩
  · have hids : (done.map Prod.fst).Perm
        ((s.workers.filter (·.endedAt.isSome)).map Worker.id) :=
      (hd.map Prod.fst).trans (.of_eq s.map_fst_ended)
    exact hids.nodup_iff.mpr (hn.sublist (List.filter_sublist.map _))
  · rw [Bool.eq_iff_iff, decide_eq_true_iff, Option.isNone_iff_eq_none]
    constructor
    · intro hout
      by_contra hsome
      obtain ⟨t, ht⟩ := Option.ne_none_iff_exists'.mp hsome
      exact hout (List.mem_map.mpr ⟨(v.id, t), (hmem _).mpr ⟨v, hv, rfl, ht⟩, rfl⟩)
    · intro hnone hin
      obtain ⟨p, hp, hid⟩ := List.mem_map.mp hin
      obtain ⟨u, hu, hup, hend⟩ := (hmem p).mp hp
      rw [eq_of_id_eq hn hu hv (hup.trans hid), hnone] at hend
      exact absurd hend nofun

/-! ### Steps -/

/-- The tables fit the tasks, and every container was told of as it should be. -/
structure Accounted (w : Watch) (ws : List Worker) (seen : List Seen) : Prop where
  coherent : Coherent w ws
  told : ∀ key, Told w ws key (signs key seen)

namespace Accounted

variable {w : Watch} {ws : List Worker} {seen : List Seen}

theorem start : Accounted {} [] [] where
  coherent := .start
  told key := ⟨fun _ => allClosed_nil, by simp, by simp [signs], .nil⟩

theorem reap (done : List (Nat × Nat)) (hn : (done.map Prod.fst).Nodup)
    (hd : ∀ p ∈ done, ∃ v ∈ ws, v.id = p.1 ∧ v.endedAt = some p.2) (h : Accounted w ws seen) :
    Accounted (w.reap done).1 (ws.filter fun v => v.id ∉ done.map Prod.fst)
      (seen ++ (w.reap done).2.map Report.seen) := by
  obtain ⟨hc, ht⟩ := Coherent.reap_induction
    (P := fun w ws seen => ∀ key, Told w ws key (signs key seen))
    (fun hc hv _ ht key => by
      rw [signs_append]
      exact (ht key).reapOne hc hv _) done hn hd h.coherent h.told
  exact ⟨hc, ht⟩

theorem offerAll (current : List ContainerKey) (accept : ContainerKey → Bool) (now : Nat)
    (h : Accounted w ws seen) :
    Accounted (w.offerAll accept now current).1
      (ws ++ (w.offerAll accept now current).2.2.map (Worker.ofStart now))
      (seen ++ (w.offerAll accept now current).2.1.map Report.seen) := by
  obtain ⟨hc, ht⟩ := Coherent.offerAll_induction accept now
    (P := fun w ws seen => ∀ key, Told w ws key (signs key seen))
    (fun k hc ht key => by
      rw [signs_append]
      exact (ht key).offer hc accept now k) current h.coherent h.told
  exact ⟨hc, ht⟩

/-- A task that only moves on in time changes nothing that is told. -/
theorem replace (h : Accounted w ws seen) {v v' : Worker} (hv : v ∈ ws) (hid : v'.id = v.id)
    (hkey : v'.key = v.key) (hab : v'.aborted = v.aborted) (hstate : v'.state = v.state) :
    Accounted w (ws.map fun u => if u.id = v'.id then v' else u) seen := by
  refine ⟨h.coherent.replace hv hid hkey hab, fun key => ?_⟩
  refine (h.told key).frame rfl (fun hs => hs) ?_
  intro u' hu' hukey huab
  obtain ⟨u, hu, rfl⟩ := List.mem_map.mp hu'
  split at hukey
  · next hi =>
    rw [if_pos hi] at huab ⊢
    exact ⟨v, hv, hkey ▸ hukey, hab ▸ huab, hstate.symm⟩
  · next hi =>
    rw [if_neg hi] at huab ⊢
    exact ⟨u, hu, hukey, huab, rfl⟩

end Accounted

/-- The first listing is told apart from the others only by what its failure does. -/
theorem Accounted.first {w : Watch} {ws : List Worker} {seen : List Seen}
    (h : Accounted w ws seen) (b : Bool) : Accounted { w with first := b } ws seen where
  coherent := { h.coherent with }
  told key := { h.told key with }

/-- One step keeps the account. -/
theorem System.Step.accounted {s s' : System} {now : Nat} {seen more : List Seen}
    (hs : s.Step now more s') (h : Accounted s.watch s.workers seen) :
    Accounted s'.watch s'.workers (seen ++ more) := by
  cases hs with
  | poll done hp ht hd =>
    obtain ⟨hn, hmem, hkeep⟩ := s.noticed h.coherent.nodup_ids hd
    have hreap := h.reap done hn hmem
    rwa [hkeep] at hreap
  | listed pods current accept exits hp ht hc he =>
    have hfirst := h.first false
    have hretain : Accounted (s.retained current).1
        (s.workers.map (Worker.stopIn (s.dropped current)))
        (seen ++ (.listing current :: exits.map Report.seen)) :=
      ⟨hfirst.coherent.retain current, fun key => by
        rw [signs_append]
        exact (hfirst.told key).retain hfirst.coherent current he⟩
    have hoffer := hretain.offerAll current accept now
    rw [List.append_assoc] at hoffer
    exact hoffer
  | missed e w hp ht hw =>
    obtain rfl := Watch.eq_of_listingFailed hw
    simpa using h
  | fails e f hp ht hw => simpa using h
  | begins w hw ha hb hl ht =>
    have hrep : Accounted s.watch (s.setWorker (w.begin now)).workers seen :=
      h.replace hw rfl rfl rfl rfl
    refine ⟨hrep.coherent, fun key => ?_⟩
    rw [signs_append, show signs key [.asks w.key w.since] = [] from rfl, List.append_nil]
    exact hrep.told key
  | follows w e hw ha hb he hl ht =>
    have hcoherent : Coherent s.watch (s.setWorker (w.meet now e)).workers :=
      h.coherent.replace hw rfl rfl rfl
    refine ⟨hcoherent, fun key => ?_⟩
    rw [signs_append]
    exact (h.told key).setWorker h.coherent hw ha he (w.meet now e) rfl rfl rfl
  | cancels w hw ha hn hl ht =>
    have hrep : Accounted s.watch (s.setWorker (w.cancel now)).workers seen :=
      h.replace hw rfl rfl rfl rfl
    rwa [List.append_nil]

/-- Every run keeps the account, from the start. -/
theorem System.Run.accounted {trace : Trace} {s : System} (h : System.Run trace s) :
    Accounted s.watch s.workers (trace.map Prod.snd) := by
  induction h with
  | start => exact .start
  | step hr hs ih =>
    rw [List.map_append, List.map_map]
    simpa [Function.comp_def] using hs.accounted ih

/-! ### Every run -/

/-- After a refusal the next callback comes only when a listing was without the container. -/
theorem exists_missing {key : ContainerKey} {seen before middle after : List Seen} {c : Callback}
    (h : (signs key seen).IsChain Heeded)
    (hs : seen = before ++ .call key (.enter false) :: (middle ++ .call key c :: after)) :
    ∃ current, .listing current ∈ middle ∧ key ∉ current := by
  by_contra hno
  push Not at hno
  -- then the signs in between are all callbacks, and the first of them is not heeded
  have hcalls : ∀ x ∈ signs key middle, x ≠ .missing := by
    intro x hx
    obtain ⟨y, hy, hyx⟩ := List.mem_filterMap.mp hx
    rintro rfl
    cases y with
    | listing current =>
      have hcur := hno current hy
      simp [Seen.sign, hcur] at hyx
    | call k c => simp [Seen.sign] at hyx
    | asks k since => simp [Seen.sign] at hyx
    | meets k e => simp [Seen.sign] at hyx
  have hsplit : signs key seen = signs key before ++ .call (.enter false) ::
      (signs key middle ++ .call c :: signs key after) := by
    simp [hs, signs, Seen.sign]
  rw [hsplit] at h
  have hchain := (List.isChain_append.mp h).2.1
  cases hm : signs key middle with
  | nil =>
    rw [hm] at hchain
    have := (List.isChain_cons_cons.mp hchain).1 rfl
    exact absurd this (by simp)
  | cons x rest =>
    rw [hm] at hchain
    have hx := (List.isChain_cons_cons.mp hchain).1 rfl
    exact hcalls x (by simp [hm]) hx

/-- **What is called back about a container is a word of blocks**, in every run: at most one of its
followers was not stopped, and after a refusal there is no callback until a listing was without the
container. -/
theorem System.Run.callbacks_isWord {trace : Trace} {s : System} (h : System.Run trace s)
    (key : ContainerKey) :
    IsWord (trace.callbacks key) ∧ (s.live key).length ≤ 1 ∧
      ∀ before middle after c, trace.map Prod.snd
          = before ++ .call key (.enter false) :: (middle ++ .call key c :: after) →
        ∃ current, .listing current ∈ middle ∧ key ∉ current := by
  have hacc := h.accounted
  have htold := hacc.told key
  refine ⟨?_, hacc.coherent.length_live_le key, fun _ _ _ _ => exists_missing htold.heeded⟩
  rw [callbacks_eq]
  cases hl : s.watch.followers.handles.lookup key with
  | none => exact .inl (htold.closed hl)
  | some i =>
    obtain ⟨v, hv, hkey, hid⟩ := hacc.coherent.exists_worker key i hl
    have hab : v.aborted = false := (hacc.coherent.live_iff v hv).mpr (by rw [hkey, hid, hl])
    obtain ⟨error, hopen, -⟩ := htold.opened v hv hkey hab
    exact .inr ⟨error, hopen⟩

/-- A container that was refused is offered again after a listing without it. -/
theorem System.Run.callbacks_isWord_offered_again :
    ∃ trace s, System.Run trace s ∧
      trace.callbacks ⟨"web", "app"⟩ = [.enter true, .event "up", .exit, .enter true] ∧
      trace.callbacks ⟨"web", "proxy"⟩ = [.enter false, .enter true] ∧
      (∀ key, IsWord (trace.callbacks key) ∧ (s.live key).length ≤ 1 ∧
        ∀ before middle after c, trace.map Prod.snd
            = before ++ .call key (.enter false) :: (middle ++ .call key c :: after) →
          ∃ current, .listing current ∈ middle ∧ key ∉ current) := by
  have h0 := System.Run.start
  have h1 := h0.step (@System.Step.poll _ 0 [] rfl (Nat.le_refl 0) (.refl _))
  have h2 := h1.step (@System.Step.listed _ 1 [⟨"web", ["app", "proxy"], none⟩]
    [⟨"web", "app"⟩, ⟨"web", "proxy"⟩] (·.container == "app") [] rfl (Nat.zero_le 1)
    (.of_eq rfl) (.refl _))
  have h3 := h2.step (@System.Step.begins _ 1
    ⟨0, ⟨"web", "app"⟩, none, false, .opening, false, 1, none⟩
    (by decide) rfl rfl (Nat.le_refl 1) (Nat.le_refl 1))
  have h4 := h3.step (@System.Step.follows _ 2
    ⟨0, ⟨"web", "app"⟩, none, true, .opening, false, 1, none⟩
    .opened (by decide) rfl rfl rfl (by decide) (by decide))
  have h5 := h4.step (@System.Step.follows _ 3
    ⟨0, ⟨"web", "app"⟩, none, true, .reading, false, 2, none⟩
    (.line "up") (by decide) rfl rfl rfl (by decide) (by decide))
  have h6 := h5.step (@System.Step.follows _ 3
    ⟨0, ⟨"web", "app"⟩, none, true, .reading, false, 3, none⟩
    .finished (by decide) rfl rfl rfl (by decide) (by decide))
  have h7 := h6.step (@System.Step.poll _ 4 [(0, 3)] rfl (by decide) (.of_eq rfl))
  have h8 := h7.step (@System.Step.listed _ 4 [⟨"web", ["app"], none⟩]
    [⟨"web", "app"⟩] (fun _ => true) [] rfl (by decide) (.of_eq rfl) (.refl _))
  have h9 := h8.step (@System.Step.poll _ 6 [] rfl (by decide) (.refl _))
  have h10 := h9.step (@System.Step.listed _ 6 [⟨"web", ["app", "proxy"], none⟩]
    [⟨"web", "app"⟩, ⟨"web", "proxy"⟩] (fun _ => true) [] rfl (by decide)
    (.of_eq rfl) (.refl _))
  exact ⟨_, _, h10, by decide, by decide, fun key => h10.callbacks_isWord key⟩

end Rollout.Kubernetes
