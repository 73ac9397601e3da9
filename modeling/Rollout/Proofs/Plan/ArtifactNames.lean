/-
No two artifacts of an application have one name.

The artifacts of a service are named by the service, a hyphen and a suffix, for the plan to set it
up as for the plan to take it down.  Names and suffixes have hyphens in them, so a name can be read
in several ways; but no suffix ends in a hyphen and another one, so only one of them is meant.

* `eq_of_append_cons_eq` cuts texts at a divider, and `name_and_suffix_unique` the names of
  artifacts at their hyphen;
* `nodup_bothArtifacts`: services of different names have different artifacts;
* `place_unique`: names without a slash are those of different files, too;
* `nodup_artifacts` draws the conclusion for the two plans of an application.
-/
import Mathlib.Data.List.Perm.Basic
import Rollout.Proofs.Plan.Parts
import Rollout.Proofs.Plan.Placement

namespace Rollout.Plan

open Host (FileTree Place)

variable {c : Kubernetes.Connection} {o : Options} {mode mode' : Mode} {s s' : Spec.Service}
  {a : Spec.Application} {p : Plan} {dir : String} {t : FileTree} {q : Place}

/-! ### Suffixes -/

/-- What ends in a divider and a piece is cut in one way when neither piece ends in the divider and
the other one. -/
theorem eq_of_append_cons_eq {α : Type} {d : α} {x y u v : List α} (hu : ¬ d :: v <:+ u)
    (hv : ¬ d :: u <:+ v) (h : x ++ d :: u = y ++ d :: v) : x = y ∧ u = v := by
  rcases List.append_eq_append_iff.mp h with ⟨more, rfl, hmore⟩ | ⟨more, rfl, hmore⟩
  · cases more with
    | nil => exact ⟨by simp, (List.cons_eq_cons.mp hmore).2⟩
    | cons _ more => exact absurd ⟨more, (List.cons_eq_cons.mp hmore).2.symm⟩ hu
  · cases more with
    | nil => exact ⟨by simp, (List.cons_eq_cons.mp hmore).2.symm⟩
    | cons _ more => exact absurd ⟨more, (List.cons_eq_cons.mp hmore).2.symm⟩ hv

/-- Suffixes have hyphens in them, but what comes behind one is no suffix. -/
theorem not_hyphen_suffix : ∀ u ∈ replicaSuffixes mode ++ shardSuffixes mode,
    ∀ v ∈ replicaSuffixes mode' ++ shardSuffixes mode', ¬ '-' :: v.toList <:+ u.toList := by
  cases mode <;> cases mode' <;> decide

theorem suffixes_sublist (mode : Mode) (s : Spec.Service) :
    (suffixes mode s).Sublist (replicaSuffixes mode ++ shardSuffixes mode) := by
  refine List.Sublist.append ?_ ?_ <;>
    split <;> first | exact .refl _ | exact List.nil_sublist _

/-- The name of an artifact tells the service and the suffix. -/
theorem name_and_suffix_unique {u v : String} (hu : u ∈ suffixes mode s)
    (hv : v ∈ suffixes mode' s') (h : s.name ++ "-" ++ u = s'.name ++ "-" ++ v) :
    s.name = s'.name ∧ u = v := by
  have hu := (suffixes_sublist mode s).subset hu
  have hv := (suffixes_sublist mode' s').subset hv
  have hchars : s.name.toList ++ '-' :: u.toList = s'.name.toList ++ '-' :: v.toList := by
    have := congrArg String.toList h
    simpa using this
  obtain ⟨hname, hsuffix⟩ :=
    eq_of_append_cons_eq (not_hyphen_suffix u hu v hv) (not_hyphen_suffix v hv u hu) hchars
  exact ⟨String.toList_inj.mp hname, String.toList_inj.mp hsuffix⟩

/-! ### Services -/

/-- The suffixes of a service in both plans. -/
def bothSuffixes (s : Spec.Service) : List String := suffixes .create s ++ suffixes .delete s

/-- The artifacts of a service in both plans. -/
def bothArtifacts (s : Spec.Service) : List String :=
  serviceArtifacts .create s ++ serviceArtifacts .delete s

theorem bothArtifacts_eq (s : Spec.Service) :
    bothArtifacts s = (bothSuffixes s).map fun suffix => s.name ++ "-" ++ suffix :=
  List.map_append.symm

theorem exists_mode_of_mem_bothSuffixes {u : String} (h : u ∈ bothSuffixes s) :
    ∃ mode, u ∈ suffixes mode s := by
  rcases List.mem_append.mp h with h | h
  · exact ⟨.create, h⟩
  · exact ⟨.delete, h⟩

theorem nodup_bothSuffixes (s : Spec.Service) : (bothSuffixes s).Nodup := by
  have hall : (replicaSuffixes .create ++ shardSuffixes .create ++
      (replicaSuffixes .delete ++ shardSuffixes .delete)).Nodup := by decide
  exact hall.sublist ((suffixes_sublist .create s).append (suffixes_sublist .delete s))

theorem nodup_bothArtifacts (s : Spec.Service) : (bothArtifacts s).Nodup := by
  rw [bothArtifacts_eq]
  refine (nodup_bothSuffixes s).map_on fun u hu v hv h => ?_
  obtain ⟨_, hu⟩ := exists_mode_of_mem_bothSuffixes hu
  obtain ⟨_, hv⟩ := exists_mode_of_mem_bothSuffixes hv
  exact (name_and_suffix_unique hu hv h).2

theorem disjoint_bothArtifacts (h : s.name ≠ s'.name) :
    List.Disjoint (bothArtifacts s) (bothArtifacts s') := by
  intro x hx hx'
  rw [bothArtifacts_eq, List.mem_map] at hx hx'
  obtain ⟨u, hu, rfl⟩ := hx
  obtain ⟨v, hv, hname⟩ := hx'
  obtain ⟨_, hu⟩ := exists_mode_of_mem_bothSuffixes hu
  obtain ⟨_, hv⟩ := exists_mode_of_mem_bothSuffixes hv
  exact h (name_and_suffix_unique hv hu hname).1.symm

theorem nodup_flatMap_bothArtifacts {l : List Spec.Service} (h : (l.map (·.name)).Nodup) :
    (l.flatMap bothArtifacts).Nodup :=
  List.nodup_flatMap.mpr ⟨fun s _ => nodup_bothArtifacts s,
    (List.pairwise_map.mp h).imp disjoint_bothArtifacts⟩

/-! ### Files -/

/-- Artifacts whose names have no slash are different files of a directory. -/
theorem place_unique {x y : String} (hx : '/' ∉ x.toList) (hy : '/' ∉ y.toList)
    (hpx : t.resolve (artifactPath dir x) = .ok q) (hpy : t.resolve (artifactPath dir y) = .ok q) :
    x = y := by
  have hplain : ∀ z : String, '/' ∉ z.toList →
      Host.Path.isAbsolute (artifactPath dir z) = Host.Path.isAbsolute dir ∧
        Host.Path.moves (artifactPath dir z) = Host.Path.moves dir ++ [z ++ ".json"] := by
    intro z hz
    have hfile : '/' ∉ (z ++ ".json").toList := by simp [hz]
    have hrelative : Host.Path.isAbsolute (z ++ ".json") = false :=
      Host.Path.isAbsolute_eq_false fun hhead => hfile (List.mem_of_head? hhead)
    refine ⟨Host.Path.isAbsolute_join dir hrelative, ?_⟩
    rw [artifactPath, Host.Path.moves_join dir hrelative]
    congr 1
    -- the name is one step, and it leads somewhere
    have hempty : z ++ ".json" ≠ "" := Host.Path.append_ne (s := "") (by decide) z
    have hdot : z ++ ".json" ≠ "." := Host.Path.append_ne (s := ".") (by decide) z
    rw [Host.Path.moves, Text.splitOn_slash, List.splitOn_eq_singleton hfile, List.map_singleton,
      String.ofList_toList, Host.Path.leading, List.filter_cons_of_pos (by simp [hempty, hdot]),
      List.filter_nil]
  have hdots : ∀ z : String, z ++ ".json" ≠ ".." :=
    Host.Path.append_ne (s := "..") (by decide)
  obtain ⟨habsx, hmovesx⟩ := hplain x hx
  obtain ⟨habsy, hmovesy⟩ := hplain y hy
  obtain ⟨px, d, hstartx, hwalkx, hqx⟩ := FileTree.exists_place_of_moves (hdots x) hmovesx hpx
  obtain ⟨py, d', hstarty, hwalky, hqy⟩ := FileTree.exists_place_of_moves (hdots y) hmovesy hpy
  have hlast : x ++ ".json" = y ++ ".json" := by
    have := (List.append_inj' (hqx.symm.trans hqy) rfl).2
    simpa using this
  exact (String.append_left_inj _).mp hlast

/-! ### Plans -/

theorem artifacts_of_compile (h : compile (.kubernetes c) o mode a = .ok p) :
    p.operations.map (·.artifact) = a.services.flatMap (serviceArtifacts mode) := by
  obtain ⟨ops, rfl, hops⟩ := exists_operations h
  exact hops

/-- **No two artifacts of an application have one name.**  When its services have different names,
all operations of the plan to set it up and of the plan to take it down keep artifacts of different
names, whatever the names of the services end in; and so no two of them are one file, in whatever
directory they are kept, when the names have no slash. -/
theorem nodup_artifacts (hnames : (a.services.map (·.name)).Nodup)
    (h : compile (.kubernetes c) o .create a = .ok p) :
    ∃ q, compile (.kubernetes c) o .delete a = .ok q ∧
      ((p.operations ++ q.operations).map (·.artifact)).Nodup ∧
      ∀ (dir : String) (t : FileTree) (place : Place),
        ∀ x ∈ p.operations ++ q.operations, '/' ∉ x.artifact.toList →
        ∀ y ∈ p.operations ++ q.operations, '/' ∉ y.artifact.toList →
          t.resolve (artifactPath dir x.artifact) = .ok place →
          t.resolve (artifactPath dir y.artifact) = .ok place → x = y := by
  obtain ⟨q, hq⟩ : ∃ q, compile (.kubernetes c) o .delete a = .ok q :=
    ⟨_, compile_delete_eq_ok_iff.mpr ⟨(compile_create_eq_ok_iff.mp h).1, rfl⟩⟩
  have hperm : (a.services.flatMap bothArtifacts).Perm
      ((p.operations ++ q.operations).map (·.artifact)) := by
    rw [List.map_append, artifacts_of_compile h, artifacts_of_compile hq]
    exact (List.flatMap_append_perm _ _ _).symm
  have hnodup := hperm.nodup_iff.mp (nodup_flatMap_bothArtifacts hnames)
  refine ⟨q, hq, hnodup, fun dir t place x hx hxs y hy hys hpx hpy => ?_⟩
  exact List.inj_on_of_nodup_map hnodup hx hy (place_unique hxs hys hpx hpy)

/-- Services that go by names like those of the artifacts of another one. -/
def namedLikeArtifacts : Spec.Application :=
  { name := "app",
    services := [
      { name := "web", ports := [{ number := 80 }], sharding := some { shards := 2 } },
      { name := "web-shard-router", replicas := 1 },
      { name := "web-deploy", replicas := 1 },
      { name := "web-deploy-delete", replicas := 1 },
      { name := "web-shard-router-service", ports := [{ number := 80 }],
        sharding := some { shards := 3 } }] }

theorem nodup_artifacts_namedLikeArtifacts :
    (namedLikeArtifacts.services.map (·.name)).Nodup ∧
      ∃ p q, compile (.kubernetes {}) {} .create namedLikeArtifacts = .ok p ∧
        compile (.kubernetes {}) {} .delete namedLikeArtifacts = .ok q ∧
        (p.operations ++ q.operations).length = 28 ∧
        ((p.operations ++ q.operations).map (·.artifact)).Nodup := by
  have hnames : (namedLikeArtifacts.services.map (·.name)).Nodup := by decide
  obtain ⟨p, hp⟩ : ∃ p, compile (.kubernetes {}) {} .create namedLikeArtifacts = .ok p := ⟨_, rfl⟩
  obtain ⟨q, hq, hnodup, -⟩ := nodup_artifacts hnames hp
  refine ⟨hnames, p, q, hp, hq, ?_, hnodup⟩
  obtain rfl := Except.ok.inj hp
  obtain rfl := Except.ok.inj hq
  rfl

end Rollout.Plan
