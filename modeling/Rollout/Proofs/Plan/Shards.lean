/-
How the resources of a shard set fit together.

The router is told its shards as one text, in which names, positions and the port are put together;
the cluster finds the shards by the name of their set, the name of the service in front of them and
the labels of their pods.

* `Labels.Selects` says which pods a selector is about, and `selects_appLabels_iff` that an
  application label is about the pods of one workload;
* `splitOn_shardAddresses` takes the text of the router apart again;
* `Fit` is what it is for the resources of a shard set to agree, and `createService_fits` says that
  the four of them do.
-/
import Rollout.Proofs.Plan.Parts
import Rollout.Proofs.Text.Split

namespace Rollout

namespace Kubernetes

/-- A selector is about the pods that carry all of its labels. -/
def Labels.Selects (selector labels : Labels) : Prop := ∀ label ∈ selector, label ∈ labels

theorem selects_appLabels_iff {name other : String} :
    (appLabels name).Selects (appLabels other) ↔ name = other := by
  simp [Labels.Selects, appLabels]

/-- The values that a container has for an environment variable. -/
def PodContainer.valuesOf (c : PodContainer) (name : String) : List String :=
  (c.env.filter (·.name = name)).map (·.value)

/-! ### Addresses -/

theorem comma_notMem_toString (n : Nat) : ',' ∉ (toString n).toList := by
  intro h
  rw [show (toString n).toList = Nat.toDigits 10 n by simp] at h
  exact absurd (Nat.isDigit_of_mem_toDigits (by decide) (by decide) h) (by decide)

theorem comma_notMem_shardAddress {name : String} (h : ',' ∉ name.toList) (port : UInt16)
    (shard : Nat) : ',' ∉ (shardAddress name port shard).toList := by
  have hport : ',' ∉ (toString port).toList := comma_notMem_toString port.toNat
  simp only [shardAddress, String.toList_append, List.mem_append, not_or]
  exact ⟨⟨⟨⟨⟨⟨⟨by decide, h⟩, by decide⟩, comma_notMem_toString shard⟩, by decide⟩, h⟩, by decide⟩,
    hport⟩

/-- The text for the router gives the address of every shard. -/
theorem splitOn_shardAddresses {name : String} (h : ',' ∉ name.toList) {shards : UInt32}
    (hshards : 0 < shards) (port : UInt16) :
    (shardAddresses name shards port).splitOn "," =
      (List.range shards.toNat).map (shardAddress name port) := by
  refine Text.splitOn_intercalate_comma ?_ fun address haddress => ?_
  · have hpos : 0 < shards.toNat := UInt32.lt_iff_toNat_lt.mp hshards
    simpa using hpos.ne'
  · obtain ⟨shard, -, rfl⟩ := List.mem_map.mp haddress
    exact comma_notMem_shardAddress h port shard

/-- The resources of a shard set agree: the service that names the shards, the set of them, their
router, and the service in front of it. -/
structure Fit (naming : Service) (set : StatefulSet) (router : Deployment) (front : Service)
    (port : UInt16) : Prop where
  headless : naming.headless = true ∧ naming.metadata.name = some set.serviceName
  /-- The router is told the address of every shard of the set, in order, and its own. -/
  addresses : ∃ c name value, router.template.containers = [c] ∧ set.metadata.name = some name ∧
    c.valuesOf "SHARD_ADDRESSES" = [value] ∧
    (value.splitOn "," = (List.range set.replicas.toNat).map fun shard =>
      s!"http://{name}-{shard}.{set.serviceName}:{port}") ∧
    c.valuesOf "SERVER_ADDRESS" = [s!"0.0.0.0:{port}"]
  ports : port ∈ naming.ports ∧ port ∈ front.ports
  names_shards : naming.selector.Selects set.template.labels ∧
    ¬ naming.selector.Selects router.template.labels
  fronts_router : front.selector.Selects router.template.labels ∧
    ¬ front.selector.Selects set.template.labels
  matches_pods : set.selector = set.template.labels ∧ router.selector = router.template.labels

end Kubernetes

namespace Plan

open Kubernetes (Fit routerName selects_appLabels_iff)

variable {o : Options} {isPublic : Bool} {s : Spec.Service} {port : Spec.Port}

theorem mem_servicePorts (h : s.firstPort = some port) :
    port.number ∈ Kubernetes.servicePorts s :=
  List.mem_map.mpr ⟨port, List.mem_of_mem_head? h, rfl⟩

theorem fit_of_sharded (hs : 0 < s.shards) (hp : s.firstPort = some port)
    (hname : ',' ∉ s.name.toList) :
    Fit (Kubernetes.headlessService s o.ns) (Kubernetes.statefulSet s o.ns s.shards)
      (Kubernetes.routerDeployment s o.ns o.routerImage s.shards port.number)
      (Kubernetes.routerService s o.ns isPublic) port.number where
  headless := ⟨rfl, rfl⟩
  addresses := by
    refine ⟨_, _, _, rfl, rfl, ?_, Kubernetes.splitOn_shardAddresses hname hs port.number, ?_⟩
    all_goals
      -- the pattern, if there is one, comes in a variable of its own
      rw [Kubernetes.PodContainer.valuesOf, Kubernetes.routerEnv]
      cases (s.sharding.bind (·.urlPattern)).filter (!·.isEmpty) <;> rfl
  ports := ⟨mem_servicePorts hp, mem_servicePorts hp⟩
  names_shards := ⟨selects_appLabels_iff.mpr rfl,
    fun h => routerName_ne s.name (selects_appLabels_iff.mp h).symm⟩
  fronts_router := ⟨selects_appLabels_iff.mpr rfl,
    fun h => routerName_ne s.name (selects_appLabels_iff.mp h)⟩
  matches_pods := ⟨rfl, rfl⟩

/-- **The four operations of a shard set fit together.**  Behind those for replicas, if there are
any, a service with shards and a port is set up by a service that names its shards, a set of as many
shards, their router and a service in front of it; and these agree with each other, unless the name
of the service has the comma that divides addresses. -/
theorem createService_fits (hs : 0 < s.shards) (hp : s.firstPort = some port)
    (hname : ',' ∉ s.name.toList) :
    ∃ naming set router front,
      createService o isPublic s =
        .ok ((if 0 < s.replicas then createReplicas o isPublic s else []) ++
          [createOperation s o.ns "shards-service" (.service naming),
            createOperation s o.ns "stateful-set" (.statefulSet set),
            createOperation s o.ns "shard-router" (.deployment router),
            createOperation s o.ns "shard-router-service" (.service front)]) ∧
      set.replicas = s.shards ∧ Fit naming set router front port.number := by
  refine ⟨_, _, _, _, createService_eq_ok_iff.mpr ⟨_, rfl, .inr ⟨?_, port, hp, rfl⟩⟩, rfl,
    fit_of_sharded hs hp hname⟩
  exact (shards_pos_iff s).mp hs

/-- A hundred shards behind a pattern, with a hyphen and a colon in their name. -/
def pieces : Spec.Service :=
  { name := "kv-store:eu", ports := [{ number := 65535 }, { number := 80 }],
    sharding := some { shards := 100, urlPattern := some "/(.*)" } }

theorem createService_fits_pieces :
    0 < pieces.shards ∧ ',' ∉ pieces.name.toList ∧
      ∃ naming set router front before,
        createService {} true pieces = .ok (before ++
          [createOperation pieces "default" "shards-service" (.service naming),
            createOperation pieces "default" "stateful-set" (.statefulSet set),
            createOperation pieces "default" "shard-router" (.deployment router),
            createOperation pieces "default" "shard-router-service" (.service front)]) ∧
        set.replicas = 100 ∧ Fit naming set router front 65535 := by
  have hs : 0 < pieces.shards := by decide
  have hname : ',' ∉ pieces.name.toList := by decide
  obtain ⟨naming, set, router, front, hcreate, hreplicas, hfit⟩ :=
    createService_fits (o := {}) (s := pieces) hs rfl hname
  exact ⟨hs, hname, naming, set, router, front, _, hcreate, hreplicas, hfit⟩

end Plan

end Rollout
