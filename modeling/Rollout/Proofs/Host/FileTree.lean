/-
Writing files into a tree.

A file is put at the place that its path leads to, and only where no directory is.  So writing
leaves the directories as they are, with them where every path leads, and what a number of writes
comes to is a number of puts at places that can be told beforehand.

* `put_put`, `put_comm`: puts at one place, and at two places;
* `SameDirs`: trees with the same directories, in which paths lead to the same places;
* `writeAll_eq_ok_iff`: files are written when each path leads to a place for a file, and then they
  are put there; `writeAll_again`: writing the same files again changes nothing;
* `makeDirs_of_isDirectory`: making a directory that is there changes nothing.
-/
import Mathlib.Data.List.Induction
import Rollout.Host.FileTree
import Rollout.Proofs.Except
import Rollout.Proofs.Text.Split

namespace Rollout.Host.FileTree

variable {t t' u : FileTree} {p q : Place} {e e' : Entry}

/-! ### Entries -/

theorem lookup_cons_eq_if (p : Place) (x : Place × Entry) (l : List (Place × Entry)) :
    (x :: l).lookup p = if p = x.1 then some x.2 else l.lookup p := by
  rw [List.lookup_cons]
  by_cases h : p = x.1
  · simp [h]
  · rw [beq_false_of_ne h, if_neg h]

/-- The entries with another one at a place. -/
def replace (p : Place) (e : Entry) (l : List (Place × Entry)) : List (Place × Entry) :=
  l.map fun (q, old) => if q == p then (q, e) else (q, old)

theorem replace_cons (p : Place) (e : Entry) (x : Place × Entry) (l : List (Place × Entry)) :
    replace p e (x :: l) = (if x.1 = p then (p, e) else x) :: replace p e l := by
  obtain ⟨q, old⟩ := x
  rw [replace, List.map_cons]
  by_cases h : q = p
  · subst h
    simp [replace]
  · simp [replace, h]

theorem replace_append (p : Place) (e : Entry) (l m : List (Place × Entry)) :
    replace p e (l ++ m) = replace p e l ++ replace p e m :=
  List.map_append

theorem replace_replace (p : Place) (e e' : Entry) (l : List (Place × Entry)) :
    replace p e' (replace p e l) = replace p e' l := by
  induction l with
  | nil => rfl
  | cons x l ih => by_cases h : x.1 = p <;> simp [replace_cons, ih, h]

theorem replace_comm (h : p ≠ q) (e e' : Entry) (l : List (Place × Entry)) :
    replace p e (replace q e' l) = replace q e' (replace p e l) := by
  induction l with
  | nil => rfl
  | cons x l ih => by_cases hp : x.1 = p <;> by_cases hq : x.1 = q <;> simp_all [replace_cons]

theorem replace_of_lookup_eq_none {l : List (Place × Entry)} (h : l.lookup p = none) (e : Entry) :
    replace p e l = l := by
  induction l with
  | nil => rfl
  | cons x l ih =>
    rw [lookup_cons_eq_if] at h
    by_cases hx : x.1 = p
    · rw [if_pos hx.symm] at h
      exact absurd h nofun
    · rw [if_neg (Ne.symm hx)] at h
      rw [replace_cons, if_neg hx, ih h]

theorem lookup_replace (p q : Place) (e : Entry) (l : List (Place × Entry)) :
    (replace p e l).lookup q = if q = p then (l.lookup q).map (fun _ => e) else l.lookup q := by
  induction l with
  | nil => simp [replace]
  | cons x l ih =>
    rw [replace_cons, lookup_cons_eq_if, lookup_cons_eq_if, ih]
    by_cases hx : x.1 = p
    · by_cases hq : q = p <;> simp [hx, hq]
    · by_cases hq : q = p
      · simp [hx, hq, Ne.symm hx]
      · simp [hx, hq]

/-! ### Puts -/

theorem put_of_some (h : (t.entries.lookup p).isSome = true) (e : Entry) :
    t.put p e = { t with entries := replace p e t.entries } :=
  if_pos h

theorem put_of_none (h : t.entries.lookup p = none) (e : Entry) :
    t.put p e = { t with entries := t.entries ++ [(p, e)] } := by
  rw [put, h]
  rfl

theorem lookup_put (t : FileTree) (p q : Place) (e : Entry) :
    (t.put p e).entries.lookup q = if q = p then some e else t.entries.lookup q := by
  cases h : t.entries.lookup p with
  | some old =>
    rw [put_of_some (by rw [h]; rfl)]
    show (replace p e t.entries).lookup q = _
    rw [lookup_replace]
    by_cases hq : q = p
    · rw [if_pos hq, if_pos hq, hq, h, Option.map_some]
    · rw [if_neg hq, if_neg hq]
  | none =>
    rw [put_of_none h]
    show (t.entries ++ [(p, e)]).lookup q = _
    rw [List.lookup_append, lookup_cons_eq_if]
    by_cases hq : q = p <;> simp [hq, h]

theorem put_put (t : FileTree) (p : Place) (e e' : Entry) :
    (t.put p e).put p e' = t.put p e' := by
  have hp : ((t.put p e).entries.lookup p).isSome = true := by simp [lookup_put]
  rw [put_of_some hp]
  cases h : t.entries.lookup p with
  | some old => rw [put_of_some (by rw [h]; rfl), put_of_some (by rw [h]; rfl), replace_replace]
  | none =>
    rw [put_of_none h, put_of_none h, replace_append, replace_of_lookup_eq_none h, replace_cons,
      if_pos rfl]
    rfl

/-- A put at a place where something is can be done before a put at another place. -/
theorem put_comm (hne : p ≠ q) (h : (t.entries.lookup p).isSome = true) (e e' : Entry) :
    (t.put q e').put p e = (t.put p e).put q e' := by
  -- neither put changes whether something is at the place of the other
  have hp : ((t.put q e').entries.lookup p).isSome = true := by simpa [lookup_put, hne] using h
  have hq : (t.put p e).entries.lookup q = t.entries.lookup q := by simp [lookup_put, hne.symm]
  rw [put_of_some hp]
  cases hold : t.entries.lookup q with
  | some old =>
    rw [put_of_some (t := t.put p e) (by rw [hq, hold]; rfl), put_of_some h,
      put_of_some (by rw [hold]; rfl), replace_comm hne]
  | none =>
    rw [put_of_none (hq.trans hold), put_of_some h, put_of_none hold, replace_append, replace_cons,
      if_neg hne.symm]
    rfl

/-- Files put at places, one after another. -/
def putAll (t : FileTree) (puts : List (Place × Bytes)) : FileTree :=
  puts.foldl (fun t (p, content) => t.put p (.file content)) t

theorem lookup_putAll_isSome {puts : List (Place × Bytes)}
    (h : p ∈ puts.map Prod.fst ∨ (t.entries.lookup p).isSome = true) :
    ((t.putAll puts).entries.lookup p).isSome = true := by
  induction puts generalizing t with
  | nil => exact h.resolve_left List.not_mem_nil
  | cons x puts ih =>
    refine ih ?_
    rw [lookup_put]
    by_cases hp : p = x.1
    · simp [hp]
    · exact (h.imp_left fun hmem => (List.mem_cons.mp hmem).resolve_left hp).imp_right
        fun hold => by rwa [if_neg hp]

/-- A put before others at places where something is, and again after them, is done after them. -/
theorem put_putAll_put {puts : List (Place × Bytes)}
    (h : ∀ x ∈ puts, (t.entries.lookup x.1).isSome = true) (p : Place) (e : Entry) :
    ((t.put p e).putAll puts).put p e = (t.putAll puts).put p e := by
  induction puts generalizing t with
  | nil => exact put_put t p e e
  | cons x puts ih =>
    obtain ⟨q, content⟩ := x
    have hq := h (q, content) List.mem_cons_self
    have hlater : ∀ x ∈ puts,
        ((t.put q (.file content)).entries.lookup x.1).isSome = true := by
      intro x hx
      rw [lookup_put]
      by_cases hxq : x.1 = q
      · rw [if_pos hxq]
        rfl
      · rw [if_neg hxq]
        exact h x (List.mem_cons_of_mem _ hx)
    show (((t.put p e).put q (.file content)).putAll puts).put p e
      = ((t.put q (.file content)).putAll puts).put p e
    by_cases hqp : q = p
    · rw [hqp, put_put]
    · rw [put_comm hqp hq, ih hlater]

/-- Files that are put again change nothing. -/
theorem putAll_putAll (t : FileTree) (puts : List (Place × Bytes)) :
    (t.putAll puts).putAll puts = t.putAll puts := by
  -- the others change nothing when they are put again, with the last put done before or after
  induction puts using List.reverseRec with
  | nil => rfl
  | append_singleton puts x ih =>
    have hlast (u : FileTree) : u.putAll (puts ++ [x]) = (u.putAll puts).put x.1 (.file x.2) := by
      rw [putAll, List.foldl_append]
      rfl
    have hthere : ∀ y ∈ puts, ((t.putAll puts).entries.lookup y.1).isSome = true :=
      fun y hy => lookup_putAll_isSome (.inl (List.mem_map_of_mem hy))
    rw [hlast, hlast, put_putAll_put hthere, ih]

/-! ### Directories -/

/-- There are directories at the same places, and relative paths start at the same one. -/
structure SameDirs (t u : FileTree) : Prop where
  workingDir : t.workingDir = u.workingDir
  dirs : ∀ p, t.at? p = some .directory ↔ u.at? p = some .directory

theorem SameDirs.refl (t : FileTree) : SameDirs t t := ⟨rfl, fun _ => Iff.rfl⟩

theorem SameDirs.trans {v : FileTree} (h : SameDirs t u) (h' : SameDirs u v) : SameDirs t v :=
  ⟨h.workingDir.trans h'.workingDir, fun p => (h.dirs p).trans (h'.dirs p)⟩

theorem sameDirs_put {content : Bytes} (h : t.at? p ≠ some .directory) :
    SameDirs t (t.put p (.file content)) := by
  refine ⟨?_, fun q => ?_⟩
  · rw [put]
    split <;> rfl
  · unfold at?
    by_cases hq : q.isEmpty = true
    · simp [hq]
    · rw [if_neg hq, if_neg hq, lookup_put]
      by_cases hqp : q = p
      · subst hqp
        rw [at?, if_neg hq] at h
        simp [h]
      · rw [if_neg hqp]

/-- A step is taken from a directory, and where it leads does not depend on anything else. -/
theorem step_eq_ok_congr (h : SameDirs t u) {name : String} :
    t.step p name = .ok q ↔ u.step p name = .ok q := by
  have hstep (v : FileTree) : v.step p name = .ok q ↔ v.at? p = some .directory ∧
      (if name == "." then .ok p else if name == ".." then .ok p.dropLast
        else if maxName < name.utf8ByteSize then .error .nameTooLong
        else .ok (p ++ [name]) : Except Error Place) = .ok q := by
    unfold step
    split <;> simp_all
  rw [hstep, hstep, h.dirs]

theorem walk_eq_ok_congr (h : SameDirs t u) {names : List String} :
    t.walk p names = .ok q ↔ u.walk p names = .ok q := by
  induction names generalizing p with
  | nil => exact Iff.rfl
  | cons name names ih =>
    rw [walk, walk, bind_eq_ok_iff, bind_eq_ok_iff]
    exact exists_congr fun r => and_congr (step_eq_ok_congr h) ih

theorem resolve_eq_ok_iff {path : String} :
    t.resolve path = .ok q ↔ ∃ p, t.start? path = some p ∧ t.walk p (steps path) = .ok q := by
  rw [resolve]
  cases t.start? path <;> simp

theorem resolve_eq_ok_congr (h : SameDirs t u) {path : String} :
    t.resolve path = .ok q ↔ u.resolve path = .ok q := by
  have hstart : t.start? path = u.start? path := by rw [start?, start?, h.workingDir]
  rw [resolve_eq_ok_iff, resolve_eq_ok_iff, hstart]
  exact exists_congr fun p => and_congr_right fun _ => walk_eq_ok_congr h

theorem isDirectory_iff {path : String} :
    t.isDirectory path = true ↔ ∃ p, t.resolve path = .ok p ∧ t.at? p = some .directory := by
  unfold isDirectory
  cases t.resolve path with
  | error e => simp
  | ok p => simp

theorem isDirectory_congr (h : SameDirs t u) {path : String} :
    t.isDirectory path = true ↔ u.isDirectory path = true := by
  rw [isDirectory_iff, isDirectory_iff]
  exact exists_congr fun p => and_congr (resolve_eq_ok_congr h) (h.dirs p)

/-! ### Writes -/

theorem write_eq_ok_iff {path : String} {content : Bytes} :
    t.write path content = .ok u ↔ ∃ p, t.resolve path = .ok p ∧ t.at? p ≠ some .directory ∧
      u = t.put p (.file content) := by
  rw [write, bind_eq_ok_iff]
  refine exists_congr fun p => and_congr_right fun _ => ?_
  split <;> simp_all [eq_comm]

theorem sameDirs_of_write {path : String} {content : Bytes} (h : t.write path content = .ok u) :
    SameDirs t u := by
  obtain ⟨p, -, hp, rfl⟩ := write_eq_ok_iff.mp h
  exact sameDirs_put hp

/-- Writes files, one after another. -/
def writeAll (t : FileTree) : List (String × Bytes) → Except Error FileTree
  | [] => .ok t
  | (path, content) :: rest => do (← t.write path content).writeAll rest

/-- A file can be written, and what it is put. -/
def LandsAt (t : FileTree) (file : String × Bytes) (put : Place × Bytes) : Prop :=
  t.resolve file.1 = .ok put.1 ∧ t.at? put.1 ≠ some .directory ∧ file.2 = put.2

theorem landsAt_congr (h : SameDirs t u) {file : String × Bytes} {put : Place × Bytes} :
    t.LandsAt file put ↔ u.LandsAt file put :=
  and_congr (resolve_eq_ok_congr h) (and_congr_left' (not_congr (h.dirs _)))

theorem writeAll_eq_ok_iff {files : List (String × Bytes)} :
    t.writeAll files = .ok u ↔
      ∃ puts, List.Forall₂ t.LandsAt files puts ∧ u = t.putAll puts := by
  induction files generalizing t with
  | nil =>
    simp only [writeAll, Except.ok.injEq, List.forall₂_nil_left_iff, exists_eq_left]
    exact eq_comm
  | cons file files ih =>
    simp only [writeAll, bind_eq_ok_iff, ih, List.forall₂_cons_left_iff]
    -- the first write leaves the directories as they are, so the others land where they would have
    constructor
    · rintro ⟨v, hv, puts, hputs, rfl⟩
      obtain ⟨p, hresolve, hp, rfl⟩ := write_eq_ok_iff.mp hv
      have hsame := sameDirs_of_write hv
      exact ⟨_, ⟨(p, file.2), puts, ⟨hresolve, hp, rfl⟩,
        hputs.imp fun _ _ h => (landsAt_congr hsame).mpr h, rfl⟩, rfl⟩
    · rintro ⟨_, ⟨⟨p, content⟩, puts, ⟨hresolve, hp, rfl⟩, hputs, rfl⟩, rfl⟩
      have hv : t.write file.1 file.2 = .ok (t.put p (.file file.2)) :=
        write_eq_ok_iff.mpr ⟨p, hresolve, hp, rfl⟩
      have hsame := sameDirs_of_write hv
      exact ⟨_, hv, puts, hputs.imp fun _ _ h => (landsAt_congr hsame).mp h, rfl⟩

theorem sameDirs_of_writeAll {files : List (String × Bytes)} (h : t.writeAll files = .ok u) :
    SameDirs t u := by
  induction files generalizing t with
  | nil => exact Except.ok.inj h ▸ SameDirs.refl t
  | cons file files ih =>
    obtain ⟨v, hv, hrest⟩ := bind_eq_ok_iff.mp h
    exact (sameDirs_of_write hv).trans (ih hrest)

/-- Files that are written again are written with success, and nothing changes. -/
theorem writeAll_again {files : List (String × Bytes)} (h : t.writeAll files = .ok u) :
    u.writeAll files = .ok u := by
  have hsame := sameDirs_of_writeAll h
  obtain ⟨puts, hputs, rfl⟩ := writeAll_eq_ok_iff.mp h
  have hagain := hputs.imp fun _ _ hput => (landsAt_congr hsame).mp hput
  exact writeAll_eq_ok_iff.mpr ⟨puts, hagain, (putAll_putAll t puts).symm⟩

/-! ### Making directories -/

theorem walk_append {names more : List String} :
    t.walk p (names ++ more) = t.walk p names >>= fun q => t.walk q more := by
  induction names generalizing p with
  | nil => rfl
  | cons name names ih =>
    rw [List.cons_append, walk, walk]
    cases t.step p name with
    | error e => rfl
    | ok q => exact ih

theorem step_dot_eq_ok_iff :
    t.step p "." = .ok q ↔ t.at? p = some .directory ∧ q = p := by
  unfold step
  cases h : t.at? p with
  | none => simp
  | some e => cases e <;> simp [eq_comm]

theorem walk_filter_dot {names : List String} (h : t.walk p names = .ok q) :
    t.walk p (names.filter (· != ".")) = .ok q := by
  induction names generalizing p with
  | nil => exact h
  | cons name names ih =>
    obtain ⟨r, hr, hrest⟩ := bind_eq_ok_iff.mp h
    by_cases hname : name = "."
    · -- a dot leads nowhere else
      subst hname
      obtain ⟨-, rfl⟩ := step_dot_eq_ok_iff.mp hr
      exact ih hrest
    · rw [List.filter_cons_of_pos (by simpa using hname)]
      exact bind_eq_ok_iff.mpr ⟨r, hr, ih hrest⟩

theorem filter_steps (path : String) : (steps path).filter (· != ".")
    = ((path.splitOn "/").filter (!·.isEmpty)).filter (· != ".") := by
  rw [steps, List.filter_append]
  cases path.endsWith "/" <;> simp

theorem steps_of_not_suffix {path : String} (h : ¬ ['/'] <:+ path.toList) :
    steps path = ((path.toList.splitOn '/').map String.ofList).filter (!·.isEmpty) := by
  rw [steps, Text.splitOn_slash, if_neg (mt (Text.endsWith_slash_iff path).mp h), List.append_nil]

/-- The steps of a path are told without single dots, but for one in front. -/
theorem components_eq_or (path : String) :
    Path.components path = (steps path).filter (· != ".") ∨
      (∃ rest, steps path = "." :: rest) ∧
        Path.components path = "." :: (steps path).filter (· != ".") := by
  rw [filter_steps, Path.components]
  split
  · rename_i rest _ hparts
    refine .inr ⟨⟨_, by rw [steps, hparts, List.cons_append]⟩, ?_⟩
    rw [hparts, List.filter_cons_of_neg (by simp)]
  · exact .inl rfl

theorem walk_components {path : String} (h : t.walk p (steps path) = .ok q) :
    t.walk p (Path.components path) = .ok q := by
  have hfilter := walk_filter_dot h
  rcases components_eq_or path with hc | ⟨⟨rest, hsteps⟩, hc⟩
  · rwa [hc]
  · -- the dot in front is the first step of the path, too
    rw [hsteps] at h
    obtain ⟨r, hdot, -⟩ := bind_eq_ok_iff.mp h
    obtain ⟨-, rfl⟩ := step_dot_eq_ok_iff.mp hdot
    rw [hc]
    exact bind_eq_ok_iff.mpr ⟨r, hdot, hfilter⟩

theorem mem_components {path c : String} (h : c ∈ Path.components path) :
    c ≠ "" ∧ '/' ∉ c.toList := by
  have hdot : "." ≠ "" ∧ '/' ∉ ".".toList := by decide
  have hstep : c ∈ steps path → c ≠ "" ∧ '/' ∉ c.toList := by
    intro hc
    rcases List.mem_append.mp hc with hc | hc
    · obtain ⟨hmem, hne⟩ := List.mem_filter.mp hc
      exact ⟨by simpa using hne, Text.slash_notMem_of_mem_splitOn hmem⟩
    · have hc : c = "." := by
        cases hend : path.endsWith "/" <;> simp [hend] at hc
        exact hc
      rwa [hc]
  rcases components_eq_or path with hc | ⟨-, hc⟩
  · rw [hc] at h
    exact hstep (List.mem_of_mem_filter h)
  · rw [hc] at h
    rcases List.mem_cons.mp h with rfl | h
    · exact hdot
    · exact hstep (List.mem_of_mem_filter h)

/-! A path that is put together from steps starts where it should and has these steps. -/

section OfComponents

variable (absolute : Bool) {names : List String} (hne : names ≠ [])
  (h : ∀ c ∈ names, c ≠ "" ∧ '/' ∉ c.toList)

include hne h

theorem toList_intercalate_slash : ∃ x chars, x ≠ '/' ∧
    ("/".intercalate names).toList = x :: chars := by
  obtain ⟨c, rest, rfl⟩ := List.exists_cons_of_ne_nil hne
  obtain ⟨hc, hslash⟩ := h c List.mem_cons_self
  obtain ⟨x, chars, hchars⟩ := List.exists_cons_of_ne_nil (mt String.toList_eq_nil_iff.mp hc)
  have hx : x ≠ '/' := fun hx => hslash (hchars ▸ hx ▸ List.mem_cons_self)
  cases rest with
  | nil => exact ⟨x, chars, hx, by rw [String.intercalate_singleton, hchars]⟩
  | cons d rest => exact ⟨x, _, hx, by
      rw [String.intercalate_cons_cons, String.toList_append, String.toList_append, hchars]
      rfl⟩

theorem isAbsolute_ofComponents :
    Path.isAbsolute (Path.ofComponents absolute names) = absolute := by
  obtain ⟨x, chars, hx, hchars⟩ := toList_intercalate_slash hne h
  cases absolute with
  | true => simp [Path.isAbsolute, Path.ofComponents]
  | false => simp [Path.isAbsolute, Path.ofComponents, hchars, hx.symm]

theorem isEmpty_ofComponents : (Path.ofComponents absolute names).isEmpty = false := by
  obtain ⟨x, chars, -, hchars⟩ := toList_intercalate_slash hne h
  rw [Bool.eq_false_iff, Ne, String.isEmpty_iff, ← String.toList_eq_nil_iff, Path.ofComponents,
    String.toList_append, hchars]
  simp

theorem steps_ofComponents : ∃ more, (more = [] ∨ more = ["."]) ∧
    steps (Path.ofComponents absolute names) = names ++ more := by
  have hsplit : (Path.ofComponents absolute names).splitOn "/"
      = (if absolute then [""] else []) ++ names := by
    cases absolute with
    | true =>
      have hpath : Path.ofComponents true names = "/".intercalate ("" :: names) := by
        rw [Path.ofComponents, if_pos rfl, String.intercalate_cons_of_ne_nil hne,
          String.empty_append]
      rw [hpath, Text.splitOn_intercalate_slash (by simp)]
      · rfl
      · exact List.forall_mem_cons.mpr ⟨by decide, fun c hc => (h c hc).2⟩
    | false =>
      rw [Path.ofComponents, if_neg Bool.false_ne_true, String.empty_append,
        Text.splitOn_intercalate_slash hne fun c hc => (h c hc).2]
      rfl
  have hnames : names.filter (!·.isEmpty) = names :=
    List.filter_eq_self.mpr fun c hc => by simpa using (h c hc).1
  refine ⟨if (Path.ofComponents absolute names).endsWith "/" then ["."] else [], ?_, ?_⟩
  · cases (Path.ofComponents absolute names).endsWith "/" <;> simp
  · rw [steps, hsplit, List.filter_append, hnames]
    cases absolute <;> rfl

end OfComponents

/-- A directory is still found by the steps that its path is told in. -/
theorem isDirectory_ofComponents {path : String} (hne : Path.components path ≠ [])
    (h : t.isDirectory path = true) :
    t.isDirectory (Path.ofComponents (Path.isAbsolute path) (Path.components path)) = true := by
  have hnames : ∀ c ∈ Path.components path, c ≠ "" ∧ '/' ∉ c.toList := fun c => mem_components
  obtain ⟨q, hresolve, hq⟩ := isDirectory_iff.mp h
  obtain ⟨p, hstart, hwalk⟩ := resolve_eq_ok_iff.mp hresolve
  have hpath : path.isEmpty = false := by
    cases hempty : path.isEmpty with
    | true =>
      rw [start?, hempty, if_pos rfl] at hstart
      exact absurd hstart nofun
    | false => rfl
  obtain ⟨more, hmore, hsteps⟩ := steps_ofComponents (Path.isAbsolute path) hne hnames
  refine isDirectory_iff.mpr ⟨q, resolve_eq_ok_iff.mpr ⟨p, ?_, ?_⟩, hq⟩
  · rw [← hstart, start?, start?, isEmpty_ofComponents _ hne hnames,
      isAbsolute_ofComponents _ hne hnames, hpath]
  · -- nothing follows the steps that were told, or a dot
    rw [hsteps, walk_append, walk_components hwalk]
    rcases hmore with rfl | rfl
    · rfl
    · have hdot := step_dot_eq_ok_iff.mpr ⟨hq, rfl⟩
      exact bind_eq_ok_iff.mpr ⟨q, rfl, bind_eq_ok_iff.mpr ⟨q, hdot, rfl⟩⟩

/-- Making a directory that is there changes nothing. -/
theorem makeDirs_of_isDirectory {path : String} (h : t.isDirectory path = true) :
    t.makeDirs path = .ok t := by
  rw [makeDirs, makeDirsFor]
  by_cases hne : Path.components path = []
  · rw [hne, List.isEmpty_nil, if_pos rfl]
  have hthere := isDirectory_ofComponents hne h
  obtain ⟨q, hresolve, hq⟩ := isDirectory_iff.mp hthere
  have hmake : t.makeDir (Path.ofComponents (Path.isAbsolute path) (Path.components path))
      = .error .alreadyThere := by
    simp [makeDir, hresolve, hq, bind, Except.bind]
  have hnot : (Path.components path).isEmpty = false := by simpa using hne
  simp only [hnot, Bool.false_eq_true, if_false, hmake, hthere, if_true]

end Rollout.Host.FileTree
