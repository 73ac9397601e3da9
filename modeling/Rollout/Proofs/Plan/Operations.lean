/-
What the plans of an application do to a cluster, service by service.

A cluster tells resources apart by their `Kubernetes.Identity`.  Plans to set up and to take down
list their operations apart from each other, in different orders and under different conditions;
both come down to the same identities.

* `createService_eq_ok_iff` says when a service can be set up and by which operations,
  `compile_create_eq_ok_iff` and `compile_delete_eq_ok_iff` when an application can be set up and
  taken down;
* `identities_createService`: a service is set up under its `serviceIdentities`;
* `undoesAll_deleteService`: taking it down undoes every operation once;
* `compile_delete_of_create`: so does the plan to take down an application.
-/
import Rollout.Plan.Basic
import Rollout.Proofs.Except

namespace Rollout

namespace Kubernetes

/-- What a cluster tells resources apart by. -/
structure Identity where
  kind : Kind
  ns : Option String
  name : Option String
  deriving DecidableEq, Repr

def Resource.identity (r : Resource) : Identity := ⟨r.kind, r.metadata.ns, r.metadata.name⟩

def Target.identity (t : Target) : Identity := ⟨t.kind, some t.ns, some t.name⟩

end Kubernetes

namespace Plan

open Kubernetes (Identity Kind routerName)

/-- The identity of the resource that an operation creates or removes. -/
def Operation.identity (op : Operation) : Identity :=
  match op.call with
  | .create _ r => r.identity
  | .delete t => t.identity

/-- The identities that a plan is about, in the order of its operations. -/
def identities (p : Plan) : List Identity :=
  match p.steps with
  | .operations _ _ ops => ops.map (·.identity)
  | .invocations _ _ => []

@[simp] theorem identities_operations (mode : Mode) (c : Kubernetes.Connection) (a : Artifacts)
    (ops : List Operation) :
    identities ⟨mode, .operations c a ops⟩ = ops.map (·.identity) := rfl

/-- One operation undoes another: it removes the resource that the other creates, with what depends
on it, and its artifact is named after the artifact of the other. -/
structure Operation.Undoes (d c : Operation) : Prop where
  creates : ∃ ns r, c.call = .create ns r ∧ r.metadata.ns = some ns
  removes : ∃ t, d.call = .delete t ∧ t.propagation = .foreground
  identity : d.identity = c.identity
  artifact : d.artifact = c.artifact ++ "-delete"

/-- Operations undo others, in some order, each of them once. -/
def UndoesAll (ds cs : List Operation) : Prop :=
  ∃ cs', cs'.Perm cs ∧ List.Forall₂ Operation.Undoes ds cs'

namespace UndoesAll

theorem nil : UndoesAll [] [] := ⟨[], .refl _, .nil⟩

theorem append {ds cs ds' cs' : List Operation} (h : UndoesAll ds cs) (h' : UndoesAll ds' cs') :
    UndoesAll (ds ++ ds') (cs ++ cs') := by
  obtain ⟨l, hperm, hundoes⟩ := h
  obtain ⟨l', hperm', hundoes'⟩ := h'
  exact ⟨l ++ l', hperm.append hperm', List.rel_append hundoes hundoes'⟩

theorem flatten {dss css : List (List Operation)} (h : List.Forall₂ UndoesAll dss css) :
    UndoesAll dss.flatten css.flatten := by
  induction h with
  | nil => exact .nil
  | cons hd _ ih => exact hd.append ih

theorem perm_identities {ds cs : List Operation} (h : UndoesAll ds cs) :
    (ds.map (·.identity)).Perm (cs.map (·.identity)) := by
  obtain ⟨cs', hperm, hundoes⟩ := h
  have heq : ds.map (·.identity) = cs'.map (·.identity) := by
    rw [← List.forall₂_eq_eq_eq, List.forall₂_map_left_iff, List.forall₂_map_right_iff]
    exact hundoes.imp fun _ _ hdc => hdc.identity
  rw [heq]
  exact hperm.map _

end UndoesAll

/-! ### Services -/

theorem shards_pos_iff (s : Spec.Service) : 0 < s.shards ↔ s.isSharded = true := by
  unfold Spec.Service.shards Spec.Service.isSharded
  cases s.sharding <;> simp

/-- A service can be set up when it has a port for its shards, if there are any. -/
theorem createService_eq_ok_iff {o : Options} {isPublic : Bool} {s : Spec.Service}
    {ops : List Operation} :
    createService o isPublic s = .ok ops ↔
      ∃ shards, ops = (if 0 < s.replicas then createReplicas o isPublic s else []) ++ shards ∧
        (s.isSharded = false ∧ shards = [] ∨
          s.isSharded = true ∧ ∃ port, s.firstPort = some port ∧
            shards = createShards o isPublic s port.number) := by
  unfold createService
  by_cases hs : s.isSharded
  · rw [if_pos ((shards_pos_iff s).mpr hs)]
    cases s.firstPort with
    | none => simp [hs]
    | some port => simp [hs, eq_comm]
  · rw [if_neg (fun h => hs ((shards_pos_iff s).mp h))]
    simp [hs, eq_comm]

/-- The identities of the resources of a service, in the order of their creation. -/
def serviceIdentities (ns : String) (s : Spec.Service) : List Identity :=
  (if 0 < s.replicas then
    [⟨.deployment, some ns, some s.name⟩, ⟨.service, some ns, some s.name⟩]
  else [])
  ++ if s.isSharded then
    [⟨.service, some ns, some s.name⟩, ⟨.statefulSet, some ns, some s.name⟩,
      ⟨.deployment, some ns, some (routerName s.name)⟩,
      ⟨.service, some ns, some (routerName s.name)⟩]
  else []

theorem identities_createService {o : Options} {isPublic : Bool} {s : Spec.Service}
    {ops : List Operation} (h : createService o isPublic s = .ok ops) :
    ops.map (·.identity) = serviceIdentities o.ns s := by
  obtain ⟨shards, rfl, hshards⟩ := createService_eq_ok_iff.mp h
  rw [List.map_append, serviceIdentities]
  congr 1
  · split <;> rfl
  · rcases hshards with ⟨hs, rfl⟩ | ⟨hs, port, -, rfl⟩
    · rw [hs]
      rfl
    · rw [hs]
      rfl

theorem undoes_deleteOperation {s : Spec.Service} {ns suffix name : String} {k : Kind}
    {r : Kubernetes.Resource} (hr : r.identity = ⟨k, some ns, some name⟩) :
    (deleteOperation s ns suffix k name).Undoes (createOperation s ns suffix r) where
  creates := ⟨ns, r, rfl, congrArg Identity.ns hr⟩
  removes := ⟨_, rfl, rfl⟩
  identity := hr.symm
  artifact := rfl

/-- Taking down a service undoes all that was done to set it up. -/
theorem undoesAll_deleteService {o : Options} {isPublic : Bool} {s : Spec.Service}
    {ops : List Operation} (h : createService o isPublic s = .ok ops) :
    UndoesAll (deleteService o.ns s) ops := by
  obtain ⟨shards, rfl, hshards⟩ := createService_eq_ok_iff.mp h
  refine UndoesAll.append ?_ ?_
  · split
    · exact ⟨_, .refl _, .cons (undoes_deleteOperation rfl)
        (.cons (undoes_deleteOperation rfl) .nil)⟩
    · exact .nil
  · rcases hshards with ⟨hs, rfl⟩ | ⟨hs, port, -, rfl⟩
    · rw [hs]
      exact .nil
    · rw [hs]
      -- The router goes first, and the service that names the shards last.
      have hperm (a b c d : Operation) : [c, b, d, a].Perm [a, b, c, d] := by
        have hlast : ([c, b, d] ++ [a]).Perm ([a] ++ [c, b, d]) := List.perm_append_comm
        exact hlast.trans ((List.Perm.swap b c [d]).cons a)
      exact ⟨_, hperm _ _ _ _, .cons (undoes_deleteOperation rfl)
        (.cons (undoes_deleteOperation rfl) (.cons (undoes_deleteOperation rfl)
          (.cons (undoes_deleteOperation rfl) .nil)))⟩

/-! ### Applications -/

variable {c : Kubernetes.Connection} {o : Options} {a : Spec.Application} {p : Plan}

/-- An application can be set up when its services pass the check and each can be set up. -/
theorem compile_create_eq_ok_iff :
    compile (.kubernetes c) o .create a = .ok p ↔
      checkServices a.services = .ok () ∧ ∃ created : List (List Operation),
        List.Forall₂ (fun s ops => createService o (a.isPublic s) s = .ok ops)
          a.services created ∧
        p = ⟨.create, .operations c (.of o.workingDir) created.flatten⟩ := by
  simp only [compile, createOperations, bind_eq_ok_iff]
  constructor
  · rintro ⟨ops, ⟨_, hcheck, created, hcreated, hops⟩, hp⟩
    refine ⟨hcheck, created, mapM_eq_ok_iff.mp hcreated, ?_⟩
    rw [← Except.ok.inj hp, ← Except.ok.inj hops]
  · rintro ⟨hcheck, created, hcreated, rfl⟩
    exact ⟨_, ⟨(), hcheck, created, mapM_eq_ok_iff.mpr hcreated, rfl⟩, rfl⟩

theorem compile_delete_eq_ok_iff :
    compile (.kubernetes c) o .delete a = .ok p ↔
      checkServices a.services = .ok () ∧
        p = ⟨.delete, .operations c (.of o.workingDir)
          (a.services.flatMap (deleteService o.ns))⟩ := by
  simp only [compile, deleteOperations, bind_eq_ok_iff]
  constructor
  · rintro ⟨ops, ⟨_, hcheck, hops⟩, hp⟩
    refine ⟨hcheck, ?_⟩
    rw [← Except.ok.inj hp, ← Except.ok.inj hops]
  · rintro ⟨hcheck, rfl⟩
    exact ⟨_, ⟨(), hcheck, rfl⟩, rfl⟩

theorem forall₂_undoesAll {l : List Spec.Service} {isPublic : Spec.Service → Bool}
    {created : List (List Operation)}
    (h : List.Forall₂ (fun s ops => createService o (isPublic s) s = .ok ops) l created) :
    List.Forall₂ UndoesAll (l.map (deleteService o.ns)) created := by
  rw [List.forall₂_map_left_iff]
  exact h.imp fun _ _ hs => undoesAll_deleteService hs

/-- **Whatever can be set up can be taken down, and nothing of it is left over.**  For each service
in turn, the plan to take the application down undoes the operations that set the service up, each
of them once; so the two plans are about the same resources, with the same multiplicities. -/
theorem compile_delete_of_create (h : compile (.kubernetes c) o .create a = .ok p) :
    ∃ created deleted : List (List Operation),
      p = ⟨.create, .operations c (.of o.workingDir) created.flatten⟩ ∧
      compile (.kubernetes c) o .delete a =
        .ok ⟨.delete, .operations c (.of o.workingDir) deleted.flatten⟩ ∧
      List.Forall₂ (fun s ops => createService o (a.isPublic s) s = .ok ops)
        a.services created ∧
      deleted = a.services.map (deleteService o.ns) ∧
      List.Forall₂ UndoesAll deleted created ∧
      (deleted.flatten.map (·.identity)).Perm (created.flatten.map (·.identity)) := by
  obtain ⟨hcheck, created, hcreated, hp⟩ := compile_create_eq_ok_iff.mp h
  have hundoes := forall₂_undoesAll hcreated
  refine ⟨created, a.services.map (deleteService o.ns), hp, ?_, hcreated, rfl, hundoes, ?_⟩
  · rw [compile_delete_eq_ok_iff, List.flatMap_def]
    exact ⟨hcheck, rfl⟩
  · exact (UndoesAll.flatten hundoes).perm_identities

/-- Replicas, shards, a shard set without shards and a service without either. -/
def mixedScales : Spec.Application :=
  { name := "shop",
    services := [
      { name := "web", ports := [{ number := 80 }], replicas := 3 },
      { name := "cache", ports := [{ number := 6379 }], sharding := some { shards := 2 } },
      { name := "queue", sharding := some { shards := 0 } },
      { name := "idle" }] }

theorem compile_delete_of_create_mixedScales :
    ∃ p, compile (.kubernetes {}) {} .create mixedScales = .ok p ∧ p.identities.length = 6 ∧
      ∃ q, compile (.kubernetes {}) {} .delete mixedScales = .ok q ∧
        q.identities.Perm p.identities := by
  obtain ⟨p, hp⟩ : ∃ p, compile (.kubernetes {}) {} .create mixedScales = .ok p := ⟨_, rfl⟩
  refine ⟨p, hp, ?_, ?_⟩
  · obtain rfl := Except.ok.inj hp
    rfl
  · obtain ⟨created, deleted, rfl, hq, -, -, -, hperm⟩ := compile_delete_of_create hp
    exact ⟨_, hq, hperm⟩

end Plan

end Rollout
