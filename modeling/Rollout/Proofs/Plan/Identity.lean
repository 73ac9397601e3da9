/-
Whether a plan is about different resources.

Validation keeps the declared names of services apart, but not the names of their routers.  So two
operations of a plan are about one resource just when some service has resources and goes by the
name of another one's router:

* `disjoint_serviceIdentities` and `nodup_serviceIdentities`: else the resources of services differ
  from each other and among themselves;
* `nodup_identities_iff`: hence the plans of a valid application are about different resources just
  when no service takes the name of a router.
-/
import Mathlib.Data.List.Nodup
import Mathlib.Data.List.Pairwise
import Rollout.Proofs.Plan.Operations
import Rollout.Proofs.Spec.Validation

namespace Rollout.Plan

open Kubernetes (Identity routerName)

/-! ### Names -/

/-- A service has resources in a cluster. -/
def HasResources (s : Spec.Service) : Prop := 0 < s.replicas ∨ s.isSharded = true

/-- A service with resources goes by the name of the router of another service. -/
def TakesRouterName (t s : Spec.Service) : Prop :=
  HasResources t ∧ s.isSharded = true ∧ t.name = routerName s.name

theorem routerName_ne (name : String) : routerName name ≠ name := by
  intro h
  have := congrArg String.length h
  simp [routerName] at this

theorem routerName_inj {name other : String} (h : routerName name = routerName other) :
    name = other :=
  (String.append_left_inj _).mp h

/-! ### Resources of services -/

theorem mem_serviceIdentities {ns : String} {s : Spec.Service} {x : Identity}
    (h : x ∈ serviceIdentities ns s) :
    HasResources s ∧ x.name = some s.name ∨
      s.isSharded = true ∧ x.name = some (routerName s.name) := by
  unfold serviceIdentities at h
  rcases List.mem_append.mp h with h | h
  · split at h
    · next hr =>
      simp only [List.mem_cons, List.not_mem_nil, or_false] at h
      rcases h with rfl | rfl <;> exact .inl ⟨.inl hr, rfl⟩
    · simp at h
  · split at h
    · next hs =>
      simp only [List.mem_cons, List.not_mem_nil, or_false] at h
      rcases h with rfl | rfl | rfl | rfl
      · exact .inl ⟨.inr hs, rfl⟩
      · exact .inl ⟨.inr hs, rfl⟩
      · exact .inr ⟨hs, rfl⟩
      · exact .inr ⟨hs, rfl⟩
    · simp at h

theorem service_mem_serviceIdentities {ns : String} {s : Spec.Service} (h : HasResources s) :
    ⟨.service, some ns, some s.name⟩ ∈ serviceIdentities ns s := by
  unfold serviceIdentities
  rcases h with h | h <;> simp [h]

theorem router_mem_serviceIdentities {ns : String} {s : Spec.Service} (h : s.isSharded = true) :
    ⟨.service, some ns, some (routerName s.name)⟩ ∈ serviceIdentities ns s := by
  simp [serviceIdentities, h]

theorem not_replicas_of_isSharded {s : Spec.Service} (h : s.check = .ok ())
    (hs : s.isSharded = true) : ¬ 0 < s.replicas := by
  intro hr
  rw [s.check_eq_ok_iff, Spec.Service.hasConflictingScale] at h
  cases hg : s.sharding with
  | none => simp [Spec.Service.isSharded, hg] at hs
  | some g => simp [hr, hg] at h

/-- The resources of a service that does not mix replicas and shards differ. -/
theorem nodup_serviceIdentities {ns : String} {s : Spec.Service} (h : s.check = .ok ()) :
    (serviceIdentities ns s).Nodup := by
  unfold serviceIdentities
  by_cases hs : s.isSharded
  · rw [if_neg (not_replicas_of_isSharded h hs), if_pos hs, List.nil_append]
    have hne := (routerName_ne s.name).symm
    simp [hne]
  · rw [if_neg hs, List.append_nil]
    split <;> simp

theorem disjoint_serviceIdentities {ns : String} {s t : Spec.Service} (hne : s.name ≠ t.name)
    (hst : ¬ TakesRouterName s t) (hts : ¬ TakesRouterName t s) :
    List.Disjoint (serviceIdentities ns s) (serviceIdentities ns t) := by
  intro x hs ht
  rcases mem_serviceIdentities hs with ⟨hrs, hxs⟩ | ⟨hrs, hxs⟩ <;>
    rcases mem_serviceIdentities ht with ⟨hrt, hxt⟩ | ⟨hrt, hxt⟩ <;>
    have hname := Option.some_inj.mp (hxs.symm.trans hxt)
  · exact hne hname
  · exact hst ⟨hrs, hrt, hname⟩
  · exact hts ⟨hrt, hrs, hname.symm⟩
  · exact hne (routerName_inj hname)

theorem not_disjoint_serviceIdentities {ns : String} {s t : Spec.Service}
    (h : TakesRouterName t s) :
    ¬ List.Disjoint (serviceIdentities ns s) (serviceIdentities ns t) := by
  obtain ⟨ht, hs, hname⟩ := h
  intro hd
  refine hd (router_mem_serviceIdentities hs) ?_
  rw [← hname]
  exact service_mem_serviceIdentities ht

/-! ### Plans -/

variable {c : Kubernetes.Connection} {o : Options} {a : Spec.Application} {p q : Plan}

theorem identities_of_create (h : compile (.kubernetes c) o .create a = .ok p) :
    p.identities = a.services.flatMap (serviceIdentities o.ns) := by
  obtain ⟨-, created, hcreated, rfl⟩ := compile_create_eq_ok_iff.mp h
  rw [identities_operations, List.map_flatten, List.flatMap_def]
  congr 1
  rw [eq_comm, ← List.forall₂_eq_eq_eq, List.forall₂_map_left_iff, List.forall₂_map_right_iff]
  exact hcreated.imp fun _ _ hs => (identities_createService hs).symm

theorem perm_identities_of_delete (h : compile (.kubernetes c) o .create a = .ok p)
    (hq : compile (.kubernetes c) o .delete a = .ok q) : q.identities.Perm p.identities := by
  obtain ⟨-, created, hcreated, rfl⟩ := compile_create_eq_ok_iff.mp h
  obtain ⟨-, rfl⟩ := compile_delete_eq_ok_iff.mp hq
  rw [List.flatMap_def]
  exact (UndoesAll.flatten (forall₂_undoesAll hcreated)).perm_identities

theorem nodup_flatMap_serviceIdentities {ns : String} {l : List Spec.Service}
    (hnames : (l.map (·.name)).Nodup) (hcheck : ∀ s ∈ l, s.check = .ok ()) :
    (l.flatMap (serviceIdentities ns)).Nodup ↔
      ∀ s ∈ l, ∀ t ∈ l, ¬ TakesRouterName t s := by
  rw [List.nodup_flatMap]
  constructor
  · -- the service in front of the router is also the one of the other service
    rintro ⟨-, hdisjoint⟩ s hs t ht htakes
    have hne : s ≠ t := by
      rintro rfl
      exact routerName_ne s.name htakes.2.2.symm
    have : Std.Symm (Function.onFun List.Disjoint (serviceIdentities ns)) :=
      ⟨fun _ _ h _ ht hs => h hs ht⟩
    exact not_disjoint_serviceIdentities htakes (hdisjoint.forall hs ht hne)
  · intro hfree
    refine ⟨fun s hs => nodup_serviceIdentities (hcheck s hs), ?_⟩
    refine (List.pairwise_map.mp hnames).imp_of_mem fun hs ht hne => ?_
    exact disjoint_serviceIdentities hne (hfree _ ht _ hs) (hfree _ hs _ ht)

/-- **A valid application is set up without asking for one resource twice, and taken down without
removing one twice, just when no service takes the name of a router.** -/
theorem nodup_identities_iff (hv : a.validate = .ok ())
    (h : compile (.kubernetes c) o .create a = .ok p) :
    ∃ q, compile (.kubernetes c) o .delete a = .ok q ∧
      (p.identities.Nodup ↔ ∀ s ∈ a.services, ∀ t ∈ a.services, ¬ TakesRouterName t s) ∧
      (q.identities.Nodup ↔ ∀ s ∈ a.services, ∀ t ∈ a.services, ¬ TakesRouterName t s) := by
  obtain ⟨-, hnames, hservices, -⟩ := a.validate_eq_ok_iff.mp hv
  have hiff : (a.services.flatMap (serviceIdentities o.ns)).Nodup ↔ _ :=
    nodup_flatMap_serviceIdentities hnames fun s hs => (hservices s hs).2.2
  obtain ⟨q, hq⟩ : ∃ q, compile (.kubernetes c) o .delete a = .ok q :=
    ⟨_, compile_delete_eq_ok_iff.mpr ⟨(compile_create_eq_ok_iff.mp h).1, rfl⟩⟩
  refine ⟨q, hq, ?_⟩
  rw [(perm_identities_of_delete h hq).nodup_iff, identities_of_create h]
  exact ⟨hiff, hiff⟩

/-- A shard set next to a service that goes by the name of its router. -/
def besideItsRouter : Spec.Application :=
  { name := "app",
    services := [
      { name := "foo", containers := [{ image := "acme/foo:1" }], ports := [{ number := 8080 }],
        sharding := some { shards := 2 } },
      { name := "foo-sharder", containers := [{ image := "acme/web:1" }],
        ports := [{ number := 80 }], replicas := 1 }] }

/-- Nothing is wrong with the specification, but its router and its second service are one. -/
theorem nodup_identities_iff_besideItsRouter :
    besideItsRouter.validate = .ok () ∧
      ∃ p q, compile (.kubernetes {}) {} .create besideItsRouter = .ok p ∧
        compile (.kubernetes {}) {} .delete besideItsRouter = .ok q ∧
        ¬ p.identities.Nodup ∧ ¬ q.identities.Nodup := by
  have hv : besideItsRouter.validate = .ok () := by decide
  obtain ⟨p, hp⟩ : ∃ p, compile (.kubernetes {}) {} .create besideItsRouter = .ok p := ⟨_, rfl⟩
  obtain ⟨q, hq, hcreate, hdelete⟩ := nodup_identities_iff hv hp
  have htakes : ¬ ∀ s ∈ besideItsRouter.services, ∀ t ∈ besideItsRouter.services,
      ¬ TakesRouterName t s := by
    intro hfree
    exact hfree _ (List.mem_cons_self) _ (List.mem_cons_of_mem _ List.mem_cons_self)
      ⟨.inl (by decide), by decide, by decide⟩
  exact ⟨hv, p, q, hp, hq, fun h => htakes (hcreate.mp h), fun h => htakes (hdelete.mp h)⟩

end Rollout.Plan
