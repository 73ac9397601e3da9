/-
Where the artifacts of a plan are put.

An artifact is named by its service and a suffix, and its file by the artifact, whatever the name
of the service is.  So a file goes into the directory that is meant for it just when the name, up to
its last slash, leads nowhere else.

* `suffixes` lists the suffixes of a service, and `exists_operations` says that the artifacts of a
  plan are those;
* `Writes` says that a program may write a file, `writes_execute_iff` and `writes_dump_iff` that
  these are the files of the artifacts;
* `writes_isChild_iff` draws the conclusion for the plans of an application.
-/
import Rollout.Proofs.Host.Child
import Rollout.Proofs.Plan.Files
import Rollout.Proofs.Plan.Identity

namespace Rollout.Plan

open Host (FileTree Program)
open Host.Path (IsChild StaysIn isChild_join_iff staysIn_of_slash_notMem)
open Kubernetes (Connection)

variable {c : Connection} {o : Options} {mode : Mode} {s : Spec.Service} {a : Spec.Application}
  {p : Plan} {ops : List Operation} {dir path : String}

/-! ### Names of artifacts -/

/-- The suffixes of the artifacts of replicas. -/
def replicaSuffixes : Mode → List String
  | .create => ["deploy", "load-balancer"]
  | .delete => ["deploy-delete", "load-balancer-delete"]

/-- The suffixes of the artifacts of shards. -/
def shardSuffixes : Mode → List String
  | .create => ["shards-service", "stateful-set", "shard-router", "shard-router-service"]
  | .delete =>
    ["shard-router-delete", "stateful-set-delete", "shard-router-service-delete",
      "shards-service-delete"]

/-- The suffixes of the artifacts of a service. -/
def suffixes (mode : Mode) (s : Spec.Service) : List String :=
  (if 0 < s.replicas then replicaSuffixes mode else []) ++
    if s.isSharded then shardSuffixes mode else []

/-- The artifacts of a service. -/
def serviceArtifacts (mode : Mode) (s : Spec.Service) : List String :=
  (suffixes mode s).map fun suffix => s.name ++ "-" ++ suffix

theorem artifacts_createService {isPublic : Bool} (h : createService o isPublic s = .ok ops) :
    ops.map (·.artifact) = serviceArtifacts .create s := by
  obtain ⟨shards, rfl, hshards⟩ := createService_eq_ok_iff.mp h
  rw [List.map_append, serviceArtifacts, suffixes, List.map_append]
  congr 1
  · split <;> rfl
  · rcases hshards with ⟨hs, rfl⟩ | ⟨hs, port, -, rfl⟩
    · rw [hs]
      rfl
    · rw [hs]
      rfl

theorem artifact_deleteOperation (s : Spec.Service) (ns suffix : String) (k : Kubernetes.Kind)
    (name : String) :
    (deleteOperation s ns suffix k name).artifact = s.name ++ "-" ++ (suffix ++ "-delete") :=
  String.append_assoc ..

theorem artifacts_deleteService (ns : String) (s : Spec.Service) :
    (deleteService ns s).map (·.artifact) = serviceArtifacts .delete s := by
  rw [deleteService, List.map_append, serviceArtifacts, suffixes, List.map_append]
  congr 1
  · split
    · simp only [List.map_cons, List.map_nil, artifact_deleteOperation]
      rfl
    · rfl
  · split
    · simp only [List.map_cons, List.map_nil, artifact_deleteOperation]
      rfl
    · rfl

/-- A plan for a cluster has the artifacts of the services, one service after another. -/
theorem exists_operations (h : compile (.kubernetes c) o mode a = .ok p) :
    ∃ ops, p = ⟨mode, .operations c (.of o.workingDir) ops⟩ ∧
      ops.map (·.artifact) = a.services.flatMap (serviceArtifacts mode) := by
  cases mode with
  | create =>
    obtain ⟨-, created, hcreated, rfl⟩ := compile_create_eq_ok_iff.mp h
    refine ⟨_, rfl, ?_⟩
    -- the services were set up in their order, each by operations of its own
    rw [List.map_flatten, List.flatMap_def]
    congr 1
    rw [eq_comm, ← List.forall₂_eq_eq_eq, List.forall₂_map_left_iff, List.forall₂_map_right_iff]
    exact hcreated.imp fun _ _ hs => (artifacts_createService hs).symm
  | delete =>
    obtain ⟨-, rfl⟩ := compile_delete_eq_ok_iff.mp h
    refine ⟨_, rfl, ?_⟩
    rw [List.map_flatMap]
    simp only [artifacts_deleteService]

/-! ### Files that are written -/

/-- There are answers with which a program writes a file. -/
def Writes (r : RunExcept Error Unit) (path : String) : Prop :=
  ∃ trace result content, Program.Path r.run trace result ∧
    (⟨.storeFile path content, .ok ()⟩ : Event) ∈ trace

theorem write_mem_schedule_iff {dryRun : Bool} {op : Operation} :
    .write op ∈ schedule dryRun ops ↔ op ∈ ops := by
  rw [schedule, List.mem_flatMap]
  cases dryRun <;> simp

/-- The files of effects in a directory are those of the artifacts to be written. -/
theorem path_eq_of_path_performAll {xs : List Effect} {trace : List Event}
    {result : Except Error Unit} {content : Bytes}
    (h : Program.Path (Effect.performAll c (.directory dir) xs).run trace result)
    (hmem : (⟨.storeFile path content, .ok ()⟩ : Event) ∈ trace) :
    ∃ op, .write op ∈ xs ∧ path = artifactPath dir op.artifact := by
  obtain ⟨before, after, htrace⟩ := List.append_of_mem hmem
  obtain ⟨done, x, rest, r, hxs, hevent, -⟩ := (path_performAll_iff.mp h).before htrace
  cases x with
  | write op =>
    have hpath : path = artifactPath dir op.artifact := by
      cases hevent
      rfl
    exact ⟨op, hxs ▸ List.mem_append_right _ List.mem_cons_self, hpath⟩
  | call op => cases hevent

theorem writes_execute_iff {dryRun : Bool} :
    Writes (execute ⟨mode, .operations c (.directory dir) ops⟩ dryRun) path ↔
      ∃ op ∈ ops, path = artifactPath dir op.artifact := by
  constructor
  · rintro ⟨trace, result, content, h, hmem⟩
    have hrun : Program.Path (Operation.executeAll c (.directory dir) dryRun ops).run
        trace result := h
    rw [executeAll_eq] at hrun
    obtain ⟨op, hop, hpath⟩ := path_eq_of_path_performAll hrun hmem
    exact ⟨op, write_mem_schedule_iff.mp hop, hpath⟩
  · rintro ⟨op, hop, rfl⟩
    exact ⟨_, _, render op.document, path_execute_ok_iff.mpr rfl,
      List.mem_map.mpr ⟨.write op, write_mem_schedule_iff.mpr hop, rfl⟩⟩

theorem writes_dump_iff {made : Artifacts} :
    Writes (dump ⟨mode, .operations c made ops⟩ dir) path ↔
      ∃ op ∈ ops, path = artifactPath dir op.artifact := by
  constructor
  · rintro ⟨trace, result, content, h, hmem⟩
    rw [dump_eq] at h
    -- nothing is written before the directory is made
    have hmakes : (makeDirOrFail dir).run.Only (· = .makeDirs dir) := only_orFail (.take rfl)
    rcases Program.path_bindExcept_iff.mp h with ⟨e, -, hfail⟩ | ⟨first, _, rest, rfl, hmake, hrest⟩
    · exact absurd (hmakes.of_path hfail _ hmem) nofun
    · rcases List.mem_append.mp hmem with hmem | hmem
      · exact absurd (hmakes.of_path hmake _ hmem) nofun
      · obtain ⟨op, hop, hpath⟩ := path_eq_of_path_performAll hrest hmem
        exact ⟨op, write_mem_schedule_iff.mp hop, hpath⟩
  · rintro ⟨op, hop, rfl⟩
    exact ⟨_, _, render op.document, path_dump_ok_iff.mpr rfl, List.mem_cons_of_mem _
      (List.mem_map.mpr ⟨.write op, write_mem_schedule_iff.mpr hop, rfl⟩)⟩

/-- What holds of the file of each artifact holds of all files that are written. -/
theorem forall_writes_dump_iff {made : Artifacts} {P : String → Prop} :
    (∀ path, Writes (dump ⟨mode, .operations c made ops⟩ dir) path → P path) ↔
      ∀ op ∈ ops, P (artifactPath dir op.artifact) := by
  constructor
  · exact fun h op hop => h _ (writes_dump_iff.mpr ⟨op, hop, rfl⟩)
  · intro h path hwrites
    obtain ⟨op, hop, rfl⟩ := writes_dump_iff.mp hwrites
    exact h op hop

/-! ### Plans -/

theorem slash_notMem_of_mem_suffixes {suffix : String} (h : suffix ∈ suffixes mode s) :
    '/' ∉ suffix.toList := by
  have hall : ∀ x ∈ replicaSuffixes mode ++ shardSuffixes mode, '/' ∉ x.toList := by
    cases mode <;> decide
  rcases List.mem_append.mp h with h | h
  · exact hall suffix (List.mem_append_left _ (List.mem_ite_nil_right.mp h).2)
  · exact hall suffix (List.mem_append_right _ (List.mem_ite_nil_right.mp h).2)

/-- The file of an artifact is in the directory just when the name of the service stays there. -/
theorem isChild_artifactPath_iff {suffix : String} (h : suffix ∈ suffixes mode s) :
    IsChild dir (artifactPath dir (s.name ++ "-" ++ suffix)) ↔ StaysIn dir s.name := by
  have hslash : '/' ∉ ("-" ++ suffix ++ ".json").toList := by
    simp [slash_notMem_of_mem_suffixes h]
  have hlength : 2 < ("-" ++ suffix ++ ".json").length := by
    rw [String.length_append]
    have : ".json".length = 5 := rfl
    omega
  have hfile : s.name ++ "-" ++ suffix ++ ".json" = s.name ++ ("-" ++ suffix ++ ".json") := by
    simp only [String.append_assoc]
  rw [artifactPath, hfile]
  exact isChild_join_iff hslash hlength

theorem exists_mem_suffixes_iff : (∃ suffix, suffix ∈ suffixes mode s) ↔ HasResources s := by
  constructor
  · rintro ⟨suffix, h⟩
    exact (List.mem_append.mp h).imp (fun h => (List.mem_ite_nil_right.mp h).1)
      fun h => (List.mem_ite_nil_right.mp h).1
  · rintro (hr | hs)
    · obtain ⟨suffix, h⟩ : ∃ suffix, suffix ∈ replicaSuffixes mode := by
        cases mode <;> exact ⟨_, List.mem_cons_self⟩
      exact ⟨suffix, List.mem_append_left _ (List.mem_ite_nil_right.mpr ⟨hr, h⟩)⟩
    · obtain ⟨suffix, h⟩ : ∃ suffix, suffix ∈ shardSuffixes mode := by
        cases mode <;> exact ⟨_, List.mem_cons_self⟩
      exact ⟨suffix, List.mem_append_right _ (List.mem_ite_nil_right.mpr ⟨hs, h⟩)⟩

/-- All files of a plan are in the directory just when the names of all services with resources
stay there. -/
theorem files_isChild_iff
    (h : ops.map (·.artifact) = a.services.flatMap (serviceArtifacts mode)) :
    (∀ op ∈ ops, IsChild dir (artifactPath dir op.artifact)) ↔
      ∀ s ∈ a.services, HasResources s → StaysIn dir s.name := by
  have hartifacts : (∀ op ∈ ops, IsChild dir (artifactPath dir op.artifact)) ↔
      ∀ x ∈ ops.map (·.artifact), IsChild dir (artifactPath dir x) := by
    rw [List.forall_mem_map]
  rw [hartifacts, h, List.forall_mem_flatMap]
  refine forall₂_congr fun s _ => ?_
  rw [serviceArtifacts, List.forall_mem_map, ← @exists_mem_suffixes_iff mode s]
  constructor
  · rintro h ⟨suffix, hsuffix⟩
    exact (isChild_artifactPath_iff hsuffix).mp (h suffix hsuffix)
  · intro h suffix hsuffix
    exact (isChild_artifactPath_iff hsuffix).mpr (h ⟨suffix, hsuffix⟩)

/-- **The artifacts of a plan are put into their directory just when the names of the services stay
there.**  This goes for a dump as for carrying the plan out, in a dry run or not, since the same
files are written then.  Names without a slash stay in every directory.  The files of names that
stay are entries of the directory in the file system, too. -/
theorem writes_isChild_iff (h : compile (.kubernetes c) o mode a = .ok p) (dir : String) :
    ((∀ path, Writes (p.dump dir) path → IsChild dir path) ↔
      ∀ s ∈ a.services, HasResources s → StaysIn dir s.name) ∧
    (o.workingDir = some dir → ∀ dryRun path,
      Writes (p.execute dryRun) path ↔ Writes (p.dump dir) path) ∧
    ((∀ s ∈ a.services, '/' ∉ s.name.toList) → ∀ s ∈ a.services, StaysIn dir s.name) ∧
    ((∀ s ∈ a.services, HasResources s → StaysIn dir s.name) →
      ∀ (t : FileTree) d path q, Writes (p.dump dir) path → t.resolve dir = .ok d →
        t.resolve path = .ok q → ∃ name, q = d ++ [name]) := by
  obtain ⟨ops, rfl, hops⟩ := exists_operations h
  have hfiles : (∀ path, Writes (dump ⟨mode, .operations c (.of o.workingDir) ops⟩ dir) path →
      IsChild dir path) ↔ ∀ s ∈ a.services, HasResources s → StaysIn dir s.name := by
    rw [forall_writes_dump_iff, files_isChild_iff hops]
  refine ⟨hfiles, fun hdir dryRun path => ?_, fun hnames s hs => ?_,
    fun hstays t d path q hwrites hd hq => ?_⟩
  · rw [hdir, Artifacts.of, writes_execute_iff, writes_dump_iff]
  · exact staysIn_of_slash_notMem dir (hnames s hs)
  · exact FileTree.exists_name_of_isChild (hfiles.mpr hstays path hwrites) hd hq

/-- An application with a service that is named after a place above. -/
def namedAbove : Spec.Application :=
  { name := "app",
    services := [
      { name := "../web", containers := [{ image := "acme/web:1" }], ports := [{ number := 80 }],
        replicas := 1 }] }

theorem not_staysIn_above : ¬ StaysIn "out" "../web" := by
  have hrelative : Host.Path.isAbsolute "../web" = false :=
    Host.Path.isAbsolute_eq_false (by decide)
  rw [StaysIn, hrelative, if_neg Bool.false_ne_true, Host.Path.lead, Text.splitOn_slash]
  decide

/-- A directory in the working directory. -/
def outTree : FileTree := { entries := [(["out"], .directory)] }

theorem resolve_outTree_above :
    outTree.resolve (artifactPath "out" "../web-deploy") = .ok ["web-deploy.json"] := by
  have hrelative : Host.Path.isAbsolute ("../web-deploy" ++ ".json") = false :=
    Host.Path.isAbsolute_eq_false (by decide)
  have hpath : artifactPath "out" "../web-deploy" = "out/../web-deploy.json" := by
    rw [artifactPath, Host.Path.join_of_not_suffix hrelative (by decide) (by decide)]
    simp
  have hsteps : FileTree.steps "out/../web-deploy.json" = ["out", "..", "web-deploy.json"] :=
    (FileTree.steps_of_not_suffix (by decide)).trans (by decide)
  rw [hpath, FileTree.resolve_eq_ok_iff, hsteps]
  exact ⟨[], by simp [FileTree.start?, Host.Path.isAbsolute, outTree], rfl⟩

/-- Nothing is wrong with the specification, but its artifacts go beside the directory. -/
theorem writes_isChild_iff_namedAbove :
    namedAbove.validate = .ok () ∧
      ∃ p, compile (.kubernetes {}) { workingDir := some "out" } .create namedAbove = .ok p ∧
        (¬ ∀ path, Writes (p.dump "out") path → IsChild "out" path) ∧
        (¬ ∀ path, Writes (p.execute true) path → IsChild "out" path) ∧
        ∃ path, Writes (p.dump "out") path ∧ outTree.resolve path = .ok ["web-deploy.json"] := by
  obtain ⟨p, hp⟩ :
      ∃ p, compile (.kubernetes {}) { workingDir := some "out" } .create namedAbove = .ok p :=
    ⟨_, rfl⟩
  obtain ⟨hdump, hexecute, -, -⟩ := writes_isChild_iff hp "out"
  have hnot : ¬ ∀ s ∈ namedAbove.services, HasResources s → StaysIn "out" s.name :=
    fun h => not_staysIn_above (h _ List.mem_cons_self (.inl (by decide)))
  refine ⟨by decide, p, hp, mt hdump.mp hnot, ?_, _, ?_, resolve_outTree_above⟩
  · simp only [hexecute rfl true]
    exact mt hdump.mp hnot
  · obtain rfl := Except.ok.inj hp
    exact writes_dump_iff.mpr ⟨_, List.mem_cons_self, rfl⟩

end Rollout.Plan
