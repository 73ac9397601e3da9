/-
The artifacts of a plan in the file system.

A plan for a cluster keeps its artifacts when it is carried out, in a dry run as in a real one, and
when it is dumped.  Each way has a loop of its own, but all write the same files in the same order,
and files that are written again stay as they are.

* `Answers` says how a tree of files answers an event, and what it is then;
* `Way` lists the ways to keep artifacts in a directory, and `Way.Leads` says what tree a success
  leads to; `Way.leads_iff`: the one in which the files were written;
* `path_execute_ok_iff`, `path_dump_ok_iff`: what is done when there is no failure;
* `same_artifacts` draws the conclusion for plans.
-/
import Mathlib.Logic.Relation
import Rollout.Proofs.Host.FileTree
import Rollout.Proofs.Plan.Applied

namespace Rollout.Plan

open Host (FileTree Program)
open Kubernetes (Connection)

variable {mode : Mode} {c : Connection} {a : Artifacts} {dryRun : Bool} {dir : String}
  {ops : List Operation} {trace : List Event} {t u : FileTree}

/-! ### Answers of a file system -/

/-- A tree of files answers an event so, and is then another one.  What a failure leaves behind is
not known. -/
def Answers (t : FileTree) : Event → FileTree → Prop
  | ⟨.storeFile path content, .ok _⟩, u => t.write path content = .ok u
  | ⟨.makeDirs path, .ok _⟩, u => t.makeDirs path = .ok u
  | ⟨.storeFile .., .error _⟩, _ | ⟨.makeDirs _, .error _⟩, _ => True
  | _, u => u = t

/-- A tree of files answers events, one after another. -/
def AnswersAll : FileTree → List Event → FileTree → Prop
  | t, [], u => u = t
  | t, v :: rest, u => ∃ t', Answers t v t' ∧ AnswersAll t' rest u

/-- The files of operations in a directory: where each is written, and what. -/
def files (dir : String) (ops : List Operation) : List (String × Bytes) :=
  ops.map fun op => (artifactPath dir op.artifact, render op.document)

/-- Carrying out operations writes their files; calls to the cluster change none. -/
theorem answersAll_schedule_iff (dryRun : Bool) :
    AnswersAll t ((schedule dryRun ops).map (Effect.success c (.directory dir))) u ↔
      t.writeAll (files dir ops) = .ok u := by
  induction ops generalizing t with
  | nil => exact ⟨fun h => congrArg Except.ok h.symm, fun h => (Except.ok.inj h).symm⟩
  | cons op ops ih =>
    rw [schedule_cons, files, List.map_cons, FileTree.writeAll, bind_eq_ok_iff]
    cases dryRun with
    | true => exact exists_congr fun t' => and_congr_right fun _ => ih
    | false =>
      refine exists_congr fun t' => and_congr_right fun _ => Iff.trans ?_ ih
      constructor
      · rintro ⟨_, rfl, hrest⟩
        exact hrest
      · exact fun hrest => ⟨t', rfl, hrest⟩

/-! ### Success -/

theorem upToFailure_ok_iff {xs : List Effect} :
    UpToFailure c a xs trace (.ok ()) ↔ trace = xs.map (Effect.success c a) := by
  constructor
  · rintro (⟨h, -⟩ | ⟨_, _, _, _, _, _, he⟩)
    · exact h
    · exact absurd he nofun
  · exact fun h => .inl ⟨h, rfl⟩

theorem path_execute_ok_iff :
    Program.Path (execute ⟨mode, .operations c a ops⟩ dryRun).run trace (.ok ()) ↔
      trace = (schedule dryRun ops).map (Effect.success c a) := by
  rw [← upToFailure_ok_iff, ← path_performAll_iff, ← executeAll_eq]
  rfl

/-- A dump keeps the artifacts as a dry run does. -/
theorem forM_persist_eq (c : Connection) (a : Artifacts) (ops : List Operation) :
    (ops.forM (·.persist a) : RunExcept Error Unit)
      = Effect.performAll c a (schedule true ops) := by
  induction ops with
  | nil => rfl
  | cons op ops ih =>
    rw [schedule_cons]
    show (op.persist a >>= fun _ => ops.forM (·.persist a)) = _
    rw [ih]
    rfl

theorem path_makeDirOrFail_ok_iff :
    Program.Path (makeDirOrFail dir).run trace (.ok ()) ↔ trace = [⟨.makeDirs dir, .ok ()⟩] := by
  rw [makeDirOrFail, path_orFail_iff]
  constructor
  · rintro ⟨x, hx, hok⟩
    cases x with
    | error e => exact absurd hok nofun
    | ok _ => exact Program.path_take_iff.mp hx
  · rintro rfl
    exact ⟨.ok (), Program.path_take_iff.mpr rfl, rfl⟩

/-- A plan is dumped by making the directory and then keeping the artifacts there. -/
theorem dump_eq : dump ⟨mode, .operations c a ops⟩ dir = makeDirOrFail dir >>= fun _ =>
    Effect.performAll c (.directory dir) (schedule true ops) := by
  rw [← forM_persist_eq]
  rfl

theorem path_dump_ok_iff :
    Program.Path (dump ⟨mode, .operations c a ops⟩ dir).run trace (.ok ()) ↔
      trace = ⟨.makeDirs dir, .ok ()⟩ ::
        (schedule true ops).map (Effect.success c (.directory dir)) := by
  rw [dump_eq, Program.path_bindExcept_iff]
  constructor
  · rintro (⟨e, he, -⟩ | ⟨first, _, rest, rfl, hmake, hrest⟩)
    · exact absurd he nofun
    · rw [path_makeDirOrFail_ok_iff.mp hmake,
        upToFailure_ok_iff.mp (path_performAll_iff.mp hrest)]
      rfl
  · rintro rfl
    refine .inr ⟨[_], (), _, rfl, path_makeDirOrFail_ok_iff.mpr rfl, ?_⟩
    exact path_performAll_iff.mpr (upToFailure_ok_iff.mpr rfl)

/-! ### Artifacts in a directory -/

/-- The ways to keep the artifacts of operations in a directory.  A plan that is dumped may have
been made to keep them elsewhere. -/
inductive Way where
  | dry
  | real
  | dump (made : Artifacts)

namespace Way

/-- What is done to keep artifacts in a way. -/
def program (w : Way) (mode : Mode) (c : Connection) (ops : List Operation) (dir : String) :
    RunExcept Error Unit :=
  match w with
  | dry => Plan.execute ⟨mode, .operations c (.directory dir) ops⟩ true
  | real => Plan.execute ⟨mode, .operations c (.directory dir) ops⟩ false
  | dump made => Plan.dump ⟨mode, .operations c made ops⟩ dir

/-- A way succeeds, whatever a cluster answers, and leads from one tree to another. -/
def Leads (w : Way) (mode : Mode) (c : Connection) (ops : List Operation) (dir : String)
    (t u : FileTree) : Prop :=
  ∃ trace, Program.Path (w.program mode c ops dir).run trace (.ok ()) ∧ AnswersAll t trace u

theorem leads_iff {w : Way} (hdir : t.isDirectory dir = true) :
    w.Leads mode c ops dir t u ↔ t.writeAll (files dir ops) = .ok u := by
  unfold Leads
  cases w with
  | dry =>
    simp only [program, path_execute_ok_iff, exists_eq_left]
    exact answersAll_schedule_iff true
  | real =>
    simp only [program, path_execute_ok_iff, exists_eq_left]
    exact answersAll_schedule_iff false
  | dump made =>
    simp only [program, path_dump_ok_iff, exists_eq_left]
    -- the directory is there, so that making it changes nothing
    have hmake := FileTree.makeDirs_of_isDirectory hdir
    rw [← answersAll_schedule_iff (c := c) true]
    constructor
    · rintro ⟨t', ht', hrest⟩
      obtain rfl := Except.ok.inj (hmake.symm.trans ht')
      exact hrest
    · exact fun hrest => ⟨t, hmake, hrest⟩

/-- Where a success has led, every way succeeds again and changes nothing. -/
theorem leads_again {w : Way} (hdir : t.isDirectory dir = true)
    (h : t.writeAll (files dir ops) = .ok u) {v : FileTree} :
    w.Leads mode c ops dir u v ↔ v = u := by
  have hsame := FileTree.sameDirs_of_writeAll h
  rw [leads_iff ((FileTree.isDirectory_congr hsame).mp hdir), FileTree.writeAll_again h]
  exact ⟨fun hv => (Except.ok.inj hv).symm, fun hv => congrArg Except.ok hv.symm⟩

end Way

/-! ### Artifacts on the standard output -/

/-- What was printed. -/
def printed : List Event → Bytes
  | [] => []
  | ⟨.print content, .ok _⟩ :: rest => content ++ printed rest
  | _ :: rest => printed rest

theorem printed_schedule :
    printed ((schedule dryRun ops).map (Effect.success c .stdout))
      = ops.flatMap fun op => render op.document := by
  induction ops with
  | nil => rfl
  | cons op ops ih =>
    rw [schedule_cons, List.flatMap_cons, ← ih]
    cases dryRun <;> rfl

/-! ### Plans -/

/-- **All ways to keep artifacts keep the same.**  Where the directory exists, a dry run, a real run
and a dump succeed on the same file systems, when each file can be written, and leave the same one
behind.  Any runs after that succeed if the cluster lets them, and change nothing more.  Without a
directory, dry runs and real runs print the same. -/
theorem same_artifacts (mode : Mode) (c : Connection) (ops : List Operation) :
    (∀ dir t, t.isDirectory dir = true →
      (∀ (w : Way) u, w.Leads mode c ops dir t u ↔ t.writeAll (files dir ops) = .ok u) ∧
      ∀ (w : Way) u, w.Leads mode c ops dir t u →
        (∀ w' : Way, w'.Leads mode c ops dir u u) ∧
        ∀ v, Relation.ReflTransGen (fun x y => ∃ w' : Way, w'.Leads mode c ops dir x y) u v →
          v = u) ∧
    ∀ dryRun trace,
      Program.Path (execute ⟨mode, .operations c .stdout ops⟩ dryRun).run trace (.ok ()) →
        printed trace = ops.flatMap fun op => render op.document := by
  refine ⟨fun dir t hdir => ⟨fun w u => Way.leads_iff hdir, fun w u h => ?_⟩, ?_⟩
  · have hwritten := (Way.leads_iff hdir).mp h
    refine ⟨fun w' => (Way.leads_again hdir hwritten).mpr rfl, fun v hruns => ?_⟩
    induction hruns with
    | refl => rfl
    | tail _ hrun ih =>
      obtain ⟨w', hw'⟩ := hrun
      subst ih
      exact (Way.leads_again hdir hwritten).mp hw'
  · intro dryRun trace h
    rw [path_execute_ok_iff.mp h, printed_schedule]

/-- Two operations whose artifacts have one name. -/
def sharedName : List Operation :=
  [⟨"web", .delete { kind := .deployment, name := "web", ns := "default" }⟩,
    ⟨"web", .delete { kind := .service, name := "web", ns := "default" }⟩]

/-- A directory with a file of that name. -/
def outbox : FileTree :=
  { entries := [(["srv"], .directory), (["srv", "out"], .directory),
      (["srv", "out", "web.json"], .file [])],
    workingDir := some ["srv"] }

theorem resolve_outbox : outbox.resolve "/srv/out" = .ok ["srv", "out"] := by
  have hsteps : FileTree.steps "/srv/out" = ["srv", "out"] :=
    (FileTree.steps_of_not_suffix (by decide)).trans (by decide)
  rw [FileTree.resolve_eq_ok_iff, hsteps]
  exact ⟨[], by simp [FileTree.start?, Host.Path.isAbsolute, outbox], rfl⟩

theorem resolve_outbox_web :
    outbox.resolve (artifactPath "/srv/out" "web") = .ok ["srv", "out", "web.json"] := by
  have hpath : artifactPath "/srv/out" "web" = "/srv/out/web.json" := by
    have hend : ¬ "/srv/out".endsWith "/" = true := mt (Text.endsWith_slash_iff _).mp (by decide)
    simp [artifactPath, Host.Path.join, Host.Path.isAbsolute, hend]
  have hsteps : FileTree.steps "/srv/out/web.json" = ["srv", "out", "web.json"] :=
    (FileTree.steps_of_not_suffix (by decide)).trans (by decide)
  rw [hpath, FileTree.resolve_eq_ok_iff, hsteps]
  exact ⟨[], by simp [FileTree.start?, Host.Path.isAbsolute, outbox], rfl⟩

/-- The artifact of the second operation stays, whichever way it was kept. -/
theorem same_artifacts_sharedName :
    outbox.isDirectory "/srv/out" = true ∧
      (∃ u, (∀ w : Way, w.Leads .delete {} sharedName "/srv/out" outbox u) ∧
        (∀ w : Way, w.Leads .delete {} sharedName "/srv/out" u u) ∧
        ∃ op ∈ sharedName.tail,
          u.at? ["srv", "out", "web.json"] = some (.file (render op.document))) ∧
      ∃ trace, Program.Path (execute ⟨.delete, .operations {} .stdout sharedName⟩ true).run
          trace (.ok ()) ∧
        printed trace = sharedName.flatMap fun op => render op.document := by
  obtain ⟨hfiles, hprints⟩ := same_artifacts .delete {} sharedName
  have hdir : outbox.isDirectory "/srv/out" = true :=
    FileTree.isDirectory_iff.mpr ⟨_, resolve_outbox, rfl⟩
  have hlands (content : Bytes) : outbox.LandsAt (artifactPath "/srv/out" "web", content)
      (["srv", "out", "web.json"], content) := ⟨resolve_outbox_web, nofun, rfl⟩
  have hwritten : outbox.writeAll (files "/srv/out" sharedName) = .ok _ :=
    FileTree.writeAll_eq_ok_iff.mpr
      ⟨[_, _], .cons (hlands _) (.cons (hlands _) .nil), rfl⟩
  obtain ⟨hleads, hagain⟩ := hfiles "/srv/out" outbox hdir
  have hdry := (hleads .dry _).mpr hwritten
  refine ⟨hdir, ⟨_, fun w => (hleads w _).mpr hwritten, (hagain .dry _ hdry).1, _,
    List.mem_singleton_self _, rfl⟩, ?_⟩
  have hpath : Program.Path (execute ⟨.delete, .operations {} .stdout sharedName⟩ true).run _
      (.ok ()) := path_execute_ok_iff.mpr rfl
  exact ⟨_, hpath, hprints _ _ hpath⟩

end Rollout.Plan
