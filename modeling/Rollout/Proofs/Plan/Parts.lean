/-
What each service brings to the plan of an application.

A plan to set up an application is the parts of its services, one after another.  A service with
replicas brings two operations, one with shards four; no service that passes the check brings both,
and one without replicas and shards brings nothing.

* `Part` says which operations these are;
* `compile_create_parts` cuts a plan into the parts of the services with resources;
* `exists_part` finds the part of one of them in the plan.
-/
import Rollout.Proofs.Plan.Identity
import Rollout.Proofs.Plan.Refusal

namespace Rollout.Plan

open Spec (Application Service)

/-- The operations of a plan for a cluster. -/
def operations (p : Plan) : List Operation :=
  match p.steps with
  | .operations _ _ ops => ops
  | .invocations _ _ => []

instance (s : Service) : Decidable (HasResources s) :=
  inferInstanceAs (Decidable (0 < s.replicas ∨ s.isSharded = true))

/-- The services of an application that have resources. -/
def deployed (a : Application) : List Service := a.services.filter (HasResources ·)

/-- The operations that set up a service with resources. -/
inductive Part (o : Options) (isPublic : Bool) (s : Service) : List Operation → Prop where
  | replicas (hr : 0 < s.replicas) (hs : s.sharding = none) :
      Part o isPublic s (createReplicas o isPublic s)
  | shards (port : Spec.Port) (hr : s.replicas = 0) (hs : s.isSharded = true)
      (hp : s.firstPort = some port) : Part o isPublic s (createShards o isPublic s port.number)

variable {o : Options} {isPublic : Bool} {s : Service} {ops : List Operation}

theorem isSharded_eq_false (h : s.sharding = none) : s.isSharded = false := by
  rw [Service.isSharded, h]
  rfl

/-- Replicas leave no room for a shard set, not even for an empty one. -/
theorem sharding_eq_none (h : s.hasConflictingScale = false) (hr : 0 < s.replicas) :
    s.sharding = none := by
  simpa [Service.hasConflictingScale, hr] using h

theorem part_of_createService (hcheck : s.hasConflictingScale = false) (hs : HasResources s)
    (h : createService o isPublic s = .ok ops) : Part o isPublic s ops := by
  obtain ⟨shards, rfl, hshards⟩ := createService_eq_ok_iff.mp h
  by_cases hr : 0 < s.replicas
  · have hnone := sharding_eq_none hcheck hr
    rcases hshards with ⟨-, rfl⟩ | ⟨hsharded, -⟩
    · rw [if_pos hr, List.append_nil]
      exact .replicas hr hnone
    · exact absurd hsharded (by simp [isSharded_eq_false hnone])
  · rw [if_neg hr, List.nil_append]
    have hsharded : s.isSharded = true := hs.resolve_left hr
    rcases hshards with ⟨hfalse, -⟩ | ⟨-, port, hport, rfl⟩
    · exact absurd hsharded (by simp [hfalse])
    · exact .shards port (UInt32.le_zero_iff.mp (UInt32.not_lt.mp hr)) hsharded hport

theorem createService_eq_nil (hs : ¬ HasResources s) (h : createService o isPublic s = .ok ops) :
    ops = [] := by
  obtain ⟨hr, hsharded⟩ := not_or.mp hs
  obtain ⟨shards, rfl, ⟨-, rfl⟩ | ⟨htrue, -⟩⟩ := createService_eq_ok_iff.mp h
  · rw [if_neg hr, List.append_nil]
  · exact absurd htrue hsharded

theorem forall₂_part {isPublic : Service → Bool} {l : List Service}
    {created : List (List Operation)} (hcheck : ∀ s ∈ l, s.hasConflictingScale = false)
    (h : List.Forall₂ (fun s ops => createService o (isPublic s) s = .ok ops) l created) :
    ∃ parts, created.flatten = parts.flatten ∧
      List.Forall₂ (fun s ops => Part o (isPublic s) s ops) (l.filter (HasResources ·)) parts := by
  induction h with
  | nil => exact ⟨[], rfl, .nil⟩
  | @cons s ops l created hs _ ih =>
    obtain ⟨hfirst, hrest⟩ := List.forall_mem_cons.mp hcheck
    obtain ⟨parts, hflatten, hparts⟩ := ih hrest
    by_cases hresources : HasResources s
    · refine ⟨ops :: parts, by rw [List.flatten_cons, List.flatten_cons, hflatten], ?_⟩
      rw [List.filter_cons_of_pos (by simpa using hresources)]
      exact .cons (part_of_createService hfirst hresources hs) hparts
    · refine ⟨parts, ?_, ?_⟩
      · rw [List.flatten_cons, createService_eq_nil hresources hs, List.nil_append, hflatten]
      · rwa [List.filter_cons_of_neg (by simpa using hresources)]

variable {c : Kubernetes.Connection} {a : Application} {p : Plan}

/-- A plan to set up an application is the parts of its services with resources, in order. -/
theorem compile_create_parts
    (h : compile (.kubernetes c) o .create a = .ok p) :
    ∃ parts, p.operations = parts.flatten ∧
      List.Forall₂ (fun s ops => Part o (a.isPublic s) s ops) (deployed a) parts := by
  obtain ⟨-, created, hcreated, rfl⟩ := compile_create_eq_ok_iff.mp h
  have hplannable := compile_succeeds_iff.mp ⟨_, h⟩
  exact forall₂_part (fun s hs => (hplannable s hs).1) hcreated

end Rollout.Plan
