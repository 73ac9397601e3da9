/-
Which specifications a backend refuses to plan.

Planning goes through the services and stops at the first that the backend cannot run or take down.
What a backend can plan depends on the service alone: not on the cluster or the group, and not on
the options.

* `Plannable` says what a backend asks of a service;
* `compile_succeeds_iff`: an application is planned when that holds of each of its services;
* `Refused` says why a cluster cannot run a service, and `compile_refuses_first` that the first
  such service is the one that every plan for a cluster fails with.
-/
import Rollout.Proofs.Plan.Operations
import Rollout.Proofs.Spec.Validation

namespace Rollout.Plan

open Spec (Application Service)

/-- The service is one container, without replication or sharding. -/
structure IsSingle (x : Service) : Prop where
  replicas : x.replicas ≤ 1
  sharding : x.sharding = none
  containers : x.containers.length = 1

/-- What a backend asks of a service before it plans it. -/
def Plannable : Backend → Mode → Service → Prop
  | .kubernetes, _, x => x.hasConflictingScale = false ∧ (x.isSharded = true → x.ports ≠ [])
  | .docker, _, x => IsSingle x
  | .aci, .create, x => IsSingle x ∧ x.ports.length ≤ 1
  | .aci, .delete, x => IsSingle x

/-! ### Command lines -/

theorem not_scaled_iff {x : Service} :
    ¬ (decide (1 < x.replicas) || x.sharding.isSome) = true ↔
      x.replicas ≤ 1 ∧ x.sharding = none := by
  simp [UInt32.not_lt]

theorem singleContainer_succeeds_iff {b : Backend} {x : Service} :
    (∃ c, singleContainer b x = .ok c) ↔ IsSingle x := by
  unfold singleContainer
  constructor
  · rintro ⟨c, h⟩
    split at h
    · exact absurd h nofun
    · rename_i hscale
      obtain ⟨hreplicas, hsharding⟩ := not_scaled_iff.mp hscale
      refine ⟨hreplicas, hsharding, ?_⟩
      match hcontainers : x.containers, h with
      | [_], _ => rfl
  · rintro ⟨hreplicas, hsharding, hcontainers⟩
    obtain ⟨c, hc⟩ := List.length_eq_one_iff.mp hcontainers
    exact ⟨c, by simp [UInt32.not_lt.mpr hreplicas, hsharding, hc]⟩

theorem portArgs_succeeds_iff {x : Service} :
    (∃ args, Aci.portArgs x = .ok args) ↔ x.ports.length ≤ 1 := by
  unfold Aci.portArgs
  match x.ports with
  | [] => exact ⟨fun _ => Nat.zero_le 1, fun _ => ⟨_, rfl⟩⟩
  | [_] => exact ⟨fun _ => Nat.le_refl 1, fun _ => ⟨_, rfl⟩⟩
  | _ :: _ :: _ => exact ⟨fun ⟨_, h⟩ => absurd h nofun, fun h => absurd h (by simp)⟩

theorem createLine_succeeds_iff {group : String} {isPublic : Bool} {x : Service} :
    (∃ argv, Aci.createLine group x isPublic = .ok argv) ↔ Plannable .aci .create x := by
  rw [Aci.createLine, bind_succeeds_iff, Plannable, ← singleContainer_succeeds_iff (b := .aci),
    ← portArgs_succeeds_iff, ← exists_and_right]
  exact exists_congr fun c => and_congr_right fun _ => bind_ok_succeeds_iff

theorem ofServices_succeeds_iff {line : Service → Except Error Host.CommandLine}
    {a : Application} :
    (∃ calls, Invocation.ofServices line a = .ok calls) ↔
      ∀ x ∈ a.services, ∃ argv, line x = .ok argv := by
  rw [Invocation.ofServices, mapM_succeeds_iff]
  simp only [bind_ok_succeeds_iff]

/-! ### Operations -/

theorem checkService_eq_ok_iff (mode : Mode) {x : Service} :
    checkService x = .ok () ↔ Plannable .kubernetes mode x := by
  have hscale : (x.check).mapError Error.invalid = .ok () ↔ x.hasConflictingScale = false := by
    unfold Spec.Service.check
    cases x.hasConflictingScale <;> simp [Except.mapError]
  have hports : (if x.isSharded && x.ports.isEmpty then .error (.missingShardPort x.name)
      else pure () : Except Error Unit) = .ok () ↔ (x.isSharded = true → x.ports ≠ []) := by
    cases x.isSharded <;> cases x.ports <;> simp [pure, Except.pure]
  rw [checkService, bind_eq_ok_iff, Plannable, ← hscale, ← hports]
  exact ⟨fun ⟨_, h⟩ => h, fun h => ⟨(), h⟩⟩

theorem createService_succeeds {o : Options} {isPublic : Bool} {x : Service}
    (h : checkService x = .ok ()) : ∃ ops, createService o isPublic x = .ok ops := by
  have hports := (checkService_eq_ok_iff .create).mp h
  cases hs : x.isSharded with
  | false => exact ⟨_, createService_eq_ok_iff.mpr ⟨[], rfl, .inl ⟨hs, rfl⟩⟩⟩
  | true =>
    obtain ⟨port, rest, hport⟩ := List.exists_cons_of_ne_nil (hports.2 hs)
    have hfirst : x.firstPort = some port := by rw [Spec.Service.firstPort, hport, List.head?_cons]
    exact ⟨_, createService_eq_ok_iff.mpr ⟨_, rfl, .inr ⟨hs, port, hfirst, rfl⟩⟩⟩

/-! ### Applications -/

/-- **An application is planned exactly when the backend can plan each of its services.** -/
theorem compile_succeeds_iff {t : Target} {o : Options} {mode : Mode} {a : Application} :
    (∃ p, compile t o mode a = .ok p) ↔ ∀ x ∈ a.services, Plannable t.backend mode x := by
  cases t with
  | kubernetes c =>
    have hchecks : checkServices a.services = .ok () ↔
        ∀ x ∈ a.services, Plannable .kubernetes mode x := by
      rw [checkServices, forM_eq_ok_iff]
      simp only [checkService_eq_ok_iff mode]
    refine Iff.trans ?_ hchecks
    cases mode with
    | create =>
      simp only [compile_create_eq_ok_iff]
      refine ⟨fun ⟨_, hcheck, _⟩ => hcheck, fun hcheck => ?_⟩
      -- what passes the check can be set up, so that the check alone decides
      have hservices : ∀ x ∈ a.services, ∃ ops, createService o (a.isPublic x) x = .ok ops :=
        fun x hx => createService_succeeds (forM_eq_ok_iff.mp hcheck x hx)
      obtain ⟨created, hcreated⟩ := mapM_succeeds_iff.mpr hservices
      exact ⟨_, hcheck, created, mapM_eq_ok_iff.mp hcreated, rfl⟩
    | delete =>
      simp only [compile_delete_eq_ok_iff]
      exact ⟨fun ⟨_, hcheck, _⟩ => hcheck, fun hcheck => ⟨_, hcheck, rfl⟩⟩
  | docker =>
    cases mode <;>
      exact bind_ok_succeeds_iff.trans (ofServices_succeeds_iff.trans
        (forall₂_congr fun x _ => bind_ok_succeeds_iff.trans singleContainer_succeeds_iff))
  | aci group =>
    cases mode with
    | create =>
      exact bind_ok_succeeds_iff.trans (ofServices_succeeds_iff.trans
        (forall₂_congr fun x _ => createLine_succeeds_iff))
    | delete =>
      exact bind_ok_succeeds_iff.trans (ofServices_succeeds_iff.trans
        (forall₂_congr fun x _ => bind_ok_succeeds_iff.trans singleContainer_succeeds_iff))

/-! ### The first refused service -/

/-- Why a cluster cannot run a service: it has two scales, or it has one but no port for its
shards. -/
inductive Refused (x : Service) : Error → Prop
  | twoScales (replicas : 0 < x.replicas) (sharding : x.sharding.isSome = true) :
      Refused x (.invalid (.replicasAndShards x.name))
  | noPort (oneScale : ¬ (0 < x.replicas ∧ x.sharding.isSome = true)) (shards : 0 < x.shards)
      (ports : x.ports = []) : Refused x (.missingShardPort x.name)

variable {c : Kubernetes.Connection} {o : Options} {mode : Mode} {a : Application} {x : Service}
  {e : Error}

/-- A refusal names the service. -/
theorem Refused.service (h : Refused x e) : e.service? = some x.name := by
  cases h <;> rfl

theorem checkService_eq_error_iff : checkService x = .error e ↔ Refused x e := by
  by_cases hscale : x.hasConflictingScale = true
  · -- the scales are looked at first, so that the ports do not matter
    obtain ⟨hreplicas, hsharding⟩ := x.hasConflictingScale_iff.mp hscale
    have hcheck : checkService x = .error (.invalid (.replicasAndShards x.name)) := by
      rw [checkService, Service.check, if_pos hscale]
      rfl
    rw [hcheck]
    constructor
    · intro h
      exact Except.error.inj h ▸ .twoScales hreplicas hsharding
    · rintro (_ | ⟨hone, -, -⟩)
      · rfl
      · exact absurd ⟨hreplicas, hsharding⟩ hone
  · have hone := mt x.hasConflictingScale_iff.mpr hscale
    have hcheck : checkService x
        = if x.isSharded && x.ports.isEmpty then .error (.missingShardPort x.name) else .ok () := by
      rw [checkService, Service.check, if_neg hscale]
      rfl
    rw [hcheck]
    constructor
    · intro h
      split at h
      · next hports =>
        obtain ⟨hs, hports⟩ := Bool.and_eq_true_iff.mp hports
        exact Except.error.inj h ▸
          .noPort hone ((shards_pos_iff x).mpr hs) (List.isEmpty_iff.mp hports)
      · exact absurd h nofun
    · rintro (⟨hreplicas, hsharding⟩ | ⟨-, hs, hports⟩)
      · exact absurd ⟨hreplicas, hsharding⟩ hone
      · rw [(shards_pos_iff x).mp hs, hports]
        rfl

/-- What a cluster can run is what it has no reason to refuse. -/
theorem plannable_iff_not_refused : Plannable .kubernetes mode x ↔ ∀ e, ¬ Refused x e := by
  rw [← checkService_eq_ok_iff]
  simp only [← checkService_eq_error_iff]
  cases checkService x with
  | error e => exact ⟨nofun, fun h => absurd rfl (h e)⟩
  | ok u => exact ⟨fun _ _ => nofun, fun _ => rfl⟩

theorem checkServices_eq_error_iff :
    checkServices a.services = .error e ↔ ∃ before x after, a.services = before ++ x :: after ∧
      (∀ y ∈ before, ∀ e', ¬ Refused y e') ∧ Refused x e := by
  rw [checkServices, forM_eq_error_iff]
  simp only [checkService_eq_ok_iff .create, plannable_iff_not_refused, checkService_eq_error_iff]

/-- Planning for a cluster fails in the check of the services, or not at all. -/
theorem compile_eq_error_iff_checkServices :
    compile (.kubernetes c) o mode a = .error e ↔ checkServices a.services = .error e := by
  cases hcheck : checkServices a.services with
  | error e' =>
    have hfail : compile (.kubernetes c) o mode a = .error e' := by
      cases mode <;> simp [compile, createOperations, deleteOperations, hcheck, bind, Except.bind]
    rw [hfail, Except.error.injEq, Except.error.injEq]
  | ok u =>
    -- what passes the check is planned
    have hservices : ∀ x ∈ a.services, Plannable .kubernetes mode x := fun x hx =>
      (checkService_eq_ok_iff mode).mp (forM_eq_ok_iff.mp hcheck x hx)
    obtain ⟨p, hp⟩ : ∃ p, compile (.kubernetes c) o mode a = .ok p :=
      compile_succeeds_iff.mpr hservices
    simp [hp]

/-- **Plans for a cluster to set up and to take down fail alike.**  Both are made when every service
has one scale at most, and a port if it has shards.  Otherwise both fail with what is wrong with the
first service for which this does not hold, which is two scales before a missing port.  It is the
check of the services that finds this out: after it each of them can be set up, so that no port is
found missing then. -/
theorem compile_refuses_first (c : Kubernetes.Connection) (o : Options) (a : Application) :
    (∀ mode, (∃ p, compile (.kubernetes c) o mode a = .ok p) ↔
      (∀ x ∈ a.services, ¬ (0 < x.replicas ∧ x.sharding.isSome = true)) ∧
        ∀ x ∈ a.services, 0 < x.shards → x.ports ≠ []) ∧
    (∀ mode e, compile (.kubernetes c) o mode a = .error e ↔
      ∃ before x after, a.services = before ++ x :: after ∧
        (∀ y ∈ before, ∀ e', ¬ Refused y e') ∧ Refused x e ∧ e.service? = some x.name) ∧
    (∀ e, compile (.kubernetes c) o .create a = .error e ↔ checkServices a.services = .error e) ∧
    (checkServices a.services = .ok () →
      ∀ x ∈ a.services, ∃ ops, createService o (a.isPublic x) x = .ok ops) := by
  refine ⟨fun mode => ?_, fun mode e => ?_, fun e => compile_eq_error_iff_checkServices, ?_⟩
  · rw [compile_succeeds_iff, ← forall₂_and]
    refine forall₂_congr fun x _ => ?_
    show Plannable .kubernetes mode x ↔ _
    rw [Plannable, ← Bool.not_eq_true, x.hasConflictingScale_iff, shards_pos_iff]
  · rw [compile_eq_error_iff_checkServices, checkServices_eq_error_iff]
    constructor
    · rintro ⟨before, x, after, hservices, hbefore, hx⟩
      exact ⟨before, x, after, hservices, hbefore, hx, hx.service⟩
    · rintro ⟨before, x, after, hservices, hbefore, hx, -⟩
      exact ⟨before, x, after, hservices, hbefore, hx⟩
  · intro hcheck x hx
    exact createService_succeeds (forM_eq_ok_iff.mp hcheck x hx)

end Rollout.Plan
