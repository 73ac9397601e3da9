/-
What the plan of an application keeps of its specification.

The plan is a flat list of operations.  It can be cut back into the parts of the services: a part
begins with a deployment and has two operations, or it begins with a service and has four.  Every
part gives its service back, up to what `Alike` leaves out.

* `alike_of_createReplicas` and `alike_of_createShards` read a service off its part;
* `Part.append_inj` cuts off the first part, `Part.eq_of_alike` is the way back;
* `operations_eq_iff`: two applications have one plan just when their services with resources are
  alike, one by one.
-/
import Rollout.Proofs.Plan.Parts

namespace Rollout.Plan

open Spec (Application Service)
open Kubernetes (Exposure Labels podContainers podTemplate)

/-- The pattern that a service has for its router; an empty one is none. -/
def routingPattern (s : Service) : Option String :=
  (s.sharding.bind (·.urlPattern)).filter (!·.isEmpty)

/-- Services that a cluster cannot tell apart: they agree in everything but the protocols of their
ports, their field paths, and whether a pattern is empty or missing. -/
structure Alike (s t : Service) : Prop where
  name : s.name = t.name
  replicas : s.replicas = t.replicas
  shards : s.shards = t.shards
  containers : s.containers = t.containers
  volumes : s.volumes = t.volumes
  ports : s.ports.map (·.number) = t.ports.map (·.number)
  pattern : routingPattern s = routingPattern t

/-! ### Resources of a service -/

variable {s t : Service} {ns image : String} {port port' : UInt16} {shards shards' : UInt32}
  {isPublic isPublic' : Bool} {o : Options} {ops ops' : List Operation}

theorem podContainers_inj (h : podContainers s = podContainers t) :
    s.containers = t.containers := by
  have hcontainers (x : Service) : (podContainers x).map
      (fun c => (⟨c.image, c.env, c.mounts⟩ : Spec.Container)) = x.containers := by
    simp [podContainers, Function.comp_def]
  rw [← hcontainers s, h, hcontainers t]

theorem podTemplate_inj (h : podTemplate s = podTemplate t) :
    s.containers = t.containers ∧ s.volumes = t.volumes :=
  ⟨podContainers_inj (congrArg (·.containers) h), congrArg (·.volumes) h⟩

theorem ofPublic_inj (h : Exposure.ofPublic isPublic = .ofPublic isPublic') :
    isPublic = isPublic' := by
  cases isPublic <;> cases isPublic' <;> first | rfl | exact absurd h nofun

theorem routerEnv_inj
    (h : Kubernetes.routerEnv s shards port = Kubernetes.routerEnv t shards' port') :
    routingPattern s = routingPattern t := by
  -- the pattern comes behind the two addresses
  have hpattern := congrArg (·.drop 2) h
  have hinj : Function.Injective (⟨"PATH_REGEXP", ·⟩ : String → Spec.EnvVar) :=
    fun _ _ heq => congrArg (·.value) heq
  have hlists := List.map_injective_iff.mpr hinj hpattern
  have hheads := congrArg List.head? hlists
  rwa [Option.head?_toList, Option.head?_toList] at hheads

theorem alike_of_createReplicas (hs : s.sharding = none) (ht : t.sharding = none)
    (h : createReplicas o isPublic s = createReplicas o isPublic' t) :
    Alike s t ∧ isPublic = isPublic' := by
  simp only [createReplicas, createOperation, List.cons.injEq, Operation.mk.injEq,
    Kubernetes.Call.create.injEq, Kubernetes.Resource.deployment.injEq,
    Kubernetes.Resource.service.injEq] at h
  obtain ⟨⟨-, -, hdeployment⟩, ⟨-, -, hservice⟩, -⟩ := h
  obtain ⟨hcontainers, hvolumes⟩ := podTemplate_inj (congrArg (·.template) hdeployment)
  refine ⟨⟨Option.some.inj (congrArg (·.metadata.name) hdeployment),
    congrArg (·.replicas) hdeployment, ?_, hcontainers, hvolumes, congrArg (·.ports) hservice, ?_⟩,
    ofPublic_inj (congrArg (·.exposure) hservice)⟩
  · rw [Service.shards, Service.shards, hs, ht]
  · rw [routingPattern, routingPattern, hs, ht]

theorem alike_of_createShards (hs : s.replicas = 0) (ht : t.replicas = 0)
    (h : createShards o isPublic s port = createShards o isPublic' t port') :
    Alike s t ∧ isPublic = isPublic' := by
  simp only [createShards, createOperation, List.cons.injEq, Operation.mk.injEq,
    Kubernetes.Call.create.injEq, Kubernetes.Resource.service.injEq,
    Kubernetes.Resource.statefulSet.injEq, Kubernetes.Resource.deployment.injEq] at h
  obtain ⟨-, ⟨-, -, hset⟩, ⟨-, -, hrouter⟩, ⟨-, -, hservice⟩, -⟩ := h
  obtain ⟨hcontainers, hvolumes⟩ := podTemplate_inj (congrArg (·.template) hset)
  have henvs := congrArg (·.template.containers.map (·.env)) hrouter
  exact ⟨⟨Option.some.inj (congrArg (·.metadata.name) hset), hs.trans ht.symm,
    congrArg (·.replicas) hset, hcontainers, hvolumes, congrArg (·.ports) hservice,
    routerEnv_inj (List.cons.inj henvs).1⟩, ofPublic_inj (congrArg (·.exposure) hservice)⟩

/-! ### Parts -/

namespace Part

/-- The first part of a list of operations is known from the list. -/
theorem append_inj (h : Part o isPublic s ops) (h' : Part o isPublic' t ops')
    {rest rest' : List Operation} (heq : ops ++ rest = ops' ++ rest') :
    (Alike s t ∧ isPublic = isPublic') ∧ rest = rest' := by
  cases h with
  | replicas hr hs =>
    cases h' with
    | replicas hr' hs' =>
      obtain ⟨hops, hrest⟩ := List.append_inj heq rfl
      exact ⟨alike_of_createReplicas hs hs' hops, hrest⟩
    | shards port hr' hs' hp' => simp [createReplicas, createShards, createOperation] at heq
  | shards port hr hs hp =>
    cases h' with
    | replicas hr' hs' => simp [createReplicas, createShards, createOperation] at heq
    | shards port' hr' hs' hp' =>
      obtain ⟨hops, hrest⟩ := List.append_inj heq rfl
      exact ⟨alike_of_createShards hr hr' hops, hrest⟩

/-- Services that are alike have the same part. -/
theorem eq_of_alike (h : Part o isPublic s ops) (h' : Part o isPublic t ops') (halike : Alike s t) :
    ops = ops' := by
  obtain ⟨hname, hreplicas, hshards, hcontainers, hvolumes, hports, hpattern⟩ := halike
  have htemplate : podTemplate s = podTemplate t := by
    rw [podTemplate, podTemplate, podContainers, podContainers, hname, hcontainers, hvolumes]
  cases h with
  | replicas hr hs =>
    cases h' with
    | replicas hr' hs' =>
      simp only [createReplicas, createOperation, Kubernetes.deployment,
        Kubernetes.loadBalancedService, Kubernetes.servicePorts, hname, hreplicas, htemplate,
        hports]
    | shards port hr' hs' hp' => exact absurd hr (by simp [hreplicas, hr'])
  | shards port hr hs hp =>
    cases h' with
    | replicas hr' hs' => exact absurd hr' (by simp [← hreplicas, hr])
    | shards port' hr' hs' hp' =>
      have hport : port.number = port'.number := by
        have hheads := congrArg List.head? hports
        rw [List.head?_map, List.head?_map] at hheads
        rw [Service.firstPort] at hp hp'
        rw [hp, hp'] at hheads
        exact Option.some.inj hheads
      rw [routingPattern, routingPattern] at hpattern
      simp only [createShards, createOperation, Kubernetes.headlessService, Kubernetes.statefulSet,
        Kubernetes.routerDeployment, Kubernetes.routerService, Kubernetes.routerEnv,
        Kubernetes.servicePorts, hname, hshards, htemplate, hports, hpattern, hport]

end Part

theorem flatten_parts_eq_iff {isPublic isPublic' : Service → Bool} {l l' : List Service}
    {parts parts' : List (List Operation)}
    (h : List.Forall₂ (fun s ops => Part o (isPublic s) s ops) l parts)
    (h' : List.Forall₂ (fun s ops => Part o (isPublic' s) s ops) l' parts') :
    parts.flatten = parts'.flatten ↔
      List.Forall₂ (fun s t => Alike s t ∧ isPublic s = isPublic' t) l l' := by
  have hne {o : Options} {isPublic : Bool} {s : Service} {ops rest : List Operation}
      (h : Part o isPublic s ops) : ops ++ rest ≠ [] := by
    cases h <;> exact nofun
  induction h generalizing l' parts' with
  | nil =>
    cases h' with
    | nil => exact ⟨fun _ => .nil, fun _ => rfl⟩
    | cons ht _ => exact ⟨fun heq => absurd heq.symm (hne ht), nofun⟩
  | cons hs _ ih =>
    cases h' with
    | nil => exact ⟨fun heq => absurd heq (hne hs), nofun⟩
    | cons ht hl' =>
      rw [List.flatten_cons, List.flatten_cons, List.forall₂_cons]
      constructor
      · intro heq
        obtain ⟨hfirst, hrest⟩ := hs.append_inj ht heq
        exact ⟨hfirst, (ih hl').mp hrest⟩
      · rintro ⟨⟨halike, hpublic⟩, hrest⟩
        rw [hs.eq_of_alike (hpublic ▸ ht) halike, (ih hl').mpr hrest]

/-! ### Plans -/

/-- **A plan keeps everything of the services that it deploys.**  Two applications that are set up
under the same options have the same operations just when their services with resources are alike,
position by position, and public alike. -/
theorem operations_eq_iff {c c' : Kubernetes.Connection} {a b : Application} {p q : Plan}
    (hp : compile (.kubernetes c) o .create a = .ok p)
    (hq : compile (.kubernetes c') o .create b = .ok q) :
    p.operations = q.operations ↔
      List.Forall₂ (fun s t => Alike s t ∧ a.isPublic s = b.isPublic t)
        (deployed a) (deployed b) := by
  obtain ⟨parts, hparts, hforall⟩ := compile_create_parts hp
  obtain ⟨parts', hparts', hforall'⟩ := compile_create_parts hq
  rw [hparts, hparts']
  exact flatten_parts_eq_iff hforall hforall'

/-- Two shards behind a public router, and a service without resources. -/
def routed : Application :=
  { name := "shop", serve := some { name := "cache", isPublic := true },
    services := [
      { name := "idle" },
      { name := "cache", containers := [{ image := "acme/cache:1", env := [⟨"MODE", "lru"⟩] }],
        ports := [{ number := 6379 }, { number := 9121 }],
        sharding := some { shards := 2, urlPattern := some "" } }] }

/-- The same as far as a cluster can tell: the pattern is missing and not empty, a port has a
protocol, the shards have a field path, and the service without resources is another one. -/
def routedAgain : Application :=
  { name := "store", serve := some { name := "cache", isPublic := true },
    services := [
      { name := "cache", containers := [{ image := "acme/cache:1", env := [⟨"MODE", "lru"⟩] }],
        ports := [{ number := 6379, protocol := some .udp }, { number := 9121 }],
        sharding := some { shards := 2, fieldPath := some "user" } },
      { name := "queue", sharding := some { shards := 0 } }] }

theorem operations_eq_iff_routed :
    ∃ p q, compile (.kubernetes {}) {} .create routed = .ok p ∧
      compile (.kubernetes {}) {} .create routedAgain = .ok q ∧ p.operations = q.operations ∧
      List.Forall₂ (fun s t => Alike s t ∧ routed.isPublic s = routedAgain.isPublic t)
        (deployed routed) (deployed routedAgain) := by
  obtain ⟨p, hp⟩ : ∃ p, compile (.kubernetes {}) {} .create routed = .ok p := ⟨_, rfl⟩
  obtain ⟨q, hq⟩ : ∃ q, compile (.kubernetes {}) {} .create routedAgain = .ok q := ⟨_, rfl⟩
  have heq : p.operations = q.operations := by
    obtain rfl := Except.ok.inj hp
    obtain rfl := Except.ok.inj hq
    rfl
  exact ⟨p, q, hp, hq, heq, (operations_eq_iff hp hq).mp heq⟩

end Rollout.Plan
