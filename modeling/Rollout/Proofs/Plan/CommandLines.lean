/-
Which applications the command-line tools can set up and take down.

* `Tool` is a backend that is driven by command lines, and `Tool.line` the command line for a
  service; `compile_tool`: a plan has the lines of the services;
* `Unfit` says why a tool has no line for a service (`Tool.line_eq_error_iff`), in the order in
  which that is looked at;
* `compile_tool_ok_iff` and `compile_tool_error_iff`: a plan has one line a service, or there is
  none because of the first service that is unfit;
* `compile_tool_unfit_first` draws the conclusion, and says that what can be set up can be taken
  down.
-/
import Rollout.Proofs.Plan.Refusal

namespace Rollout.Plan

open Host (CommandLine)
open Spec (Application Service)

/-- A backend that is driven by command lines. -/
inductive Tool where
  | docker
  | aci (group : String)

namespace Tool

def target : Tool → Target
  | docker => .docker
  | aci group => .aci group

def backend (t : Tool) : Backend := t.target.backend

/-- The command line for a service of an application. -/
def line : Tool → Mode → Application → Service → Except Error CommandLine
  | docker, .create, _, x => Docker.runLine x
  | docker, .delete, _, x => Docker.removeLine x
  | aci group, .create, a, x => Aci.createLine group x (a.isPublic x)
  | aci group, .delete, _, x => Aci.deleteLine group x

/-- The command line that takes a service down. -/
def removal : Tool → String → CommandLine
  | docker, service => ["docker", "rm", "-f", service]
  | aci group, service => ["az", "container", "delete", "-g", group, "-n", service, "--yes"]

end Tool

/-- Why a service is not one container alone.  Its scale is looked at first. -/
inductive NotSingle (b : Backend) (x : Service) : Error → Prop
  | scaled (scale : 1 < x.replicas ∨ x.sharding.isSome = true) :
      NotSingle b x (.unsupported b x.name .replicationOrSharding)
  | noContainer (replicas : x.replicas ≤ 1) (sharding : x.sharding = none)
      (containers : x.containers = []) : NotSingle b x (.noContainers x.name)
  | manyContainers (replicas : x.replicas ≤ 1) (sharding : x.sharding = none)
      (containers : 1 < x.containers.length) :
      NotSingle b x (.unsupported b x.name .multipleContainers)

/-- Why there is no command line for a service.  Its ports are looked at last, and only when a
container instance is made. -/
inductive Unfit (b : Backend) (mode : Mode) (x : Service) : Error → Prop
  | notSingle {e : Error} (h : NotSingle b x e) : Unfit b mode x e
  | manyPorts (single : IsSingle x) (instances : b = .aci) (creates : mode = .create)
      (ports : 1 < x.ports.length) : Unfit b mode x (.unsupported .aci x.name .multiplePorts)

variable {t : Tool} {b : Backend} {mode : Mode} {o : Options} {a : Application} {x : Service}
  {e : Error}

theorem Unfit.service (h : Unfit b mode x e) : e.service? = some x.name := by
  rcases h with (_ | _ | _) | _ <;> rfl

/-! ### One service -/

theorem singleContainer_eq_error_iff : singleContainer b x = .error e ↔ NotSingle b x e := by
  constructor
  · intro h
    unfold singleContainer at h
    split at h
    · next hscale =>
      cases h
      exact .scaled (by simpa using hscale)
    · next hscale =>
      obtain ⟨hreplicas, hsharding⟩ := not_scaled_iff.mp hscale
      split at h
      · next hnone =>
        cases h
        exact .noContainer hreplicas hsharding hnone
      · cases h
      · next hnotNone hnotOne =>
        cases h
        refine .manyContainers hreplicas hsharding ?_
        match hc : x.containers with
        | [] => exact absurd hc hnotNone
        | [c] => exact absurd hc (hnotOne c)
        | _ :: _ :: _ => exact Nat.succ_lt_succ (Nat.succ_pos _)
  · intro h
    cases h with
    | scaled scale => exact if_pos (by simpa using scale)
    | noContainer hreplicas hsharding hnone =>
      rw [singleContainer, if_neg (not_scaled_iff.mpr ⟨hreplicas, hsharding⟩), hnone]
    | manyContainers hreplicas hsharding hmany =>
      rw [singleContainer, if_neg (not_scaled_iff.mpr ⟨hreplicas, hsharding⟩)]
      match hc : x.containers with
      | [] | [_] => simp [hc] at hmany
      | _ :: _ :: _ => rfl

theorem portArgs_eq_error_iff : Aci.portArgs x = .error e ↔
    e = .unsupported .aci x.name .multiplePorts ∧ 1 < x.ports.length := by
  unfold Aci.portArgs
  match x.ports with
  | [] | [_] => exact ⟨nofun, fun h => absurd h.2 (by simp)⟩
  | _ :: _ :: _ => simp [eq_comm]

theorem bind_singleContainer_eq_error_iff {b : Backend} {f : Spec.Container → CommandLine} :
    (singleContainer b x >>= fun c => .ok (f c)) = .error e ↔ NotSingle b x e := by
  rw [bind_ok_eq_error_iff, singleContainer_eq_error_iff]

theorem createLine_eq_error_iff {group : String} {isPublic : Bool} :
    Aci.createLine group x isPublic = .error e ↔ Unfit .aci .create x e := by
  rw [Aci.createLine, bind_eq_error_iff, singleContainer_eq_error_iff]
  constructor
  · rintro (hsingle | ⟨c, hc, hports⟩)
    · exact .notSingle hsingle
    · rw [bind_ok_eq_error_iff, portArgs_eq_error_iff] at hports
      obtain ⟨rfl, hports⟩ := hports
      exact .manyPorts (singleContainer_succeeds_iff.mp ⟨c, hc⟩) rfl rfl hports
  · rintro (hsingle | ⟨single, -, -, hports⟩)
    · exact .inl hsingle
    · obtain ⟨c, hc⟩ := singleContainer_succeeds_iff.mpr single
      exact .inr ⟨c, hc, bind_ok_eq_error_iff.mpr (portArgs_eq_error_iff.mpr ⟨rfl, hports⟩)⟩

/-- When no container instance is made, the ports do not matter. -/
theorem unfit_iff_notSingle (h : ¬ (b = .aci ∧ mode = .create)) :
    Unfit b mode x e ↔ NotSingle b x e := by
  constructor
  · rintro (hsingle | ⟨-, hb, hmode, -⟩)
    · exact hsingle
    · exact absurd ⟨hb, hmode⟩ h
  · exact .notSingle

/-- A tool has no line for a service exactly when that is unfit. -/
theorem Tool.line_eq_error_iff : t.line mode a x = .error e ↔ Unfit t.backend mode x e := by
  match t, mode with
  | docker, .create | docker, .delete | aci _, .delete =>
    rw [unfit_iff_notSingle (by simp [backend, target, Target.backend])]
    exact bind_singleContainer_eq_error_iff
  | aci group, .create => exact createLine_eq_error_iff

theorem Tool.line_succeeds_iff :
    (∃ argv, t.line mode a x = .ok argv) ↔ ∀ e, ¬ Unfit t.backend mode x e := by
  simp only [succeeds_iff_ne_error, ne_eq, line_eq_error_iff]

/-- What a tool can do anything with is one container. -/
theorem Tool.isSingle_of_line {argv : CommandLine} (h : t.line mode a x = .ok argv) :
    IsSingle x := by
  have hfit := line_succeeds_iff.mp ⟨argv, h⟩
  rw [← singleContainer_succeeds_iff , succeeds_iff_ne_error]
  intro e he
  exact hfit e (.notSingle (singleContainer_eq_error_iff.mp he))

theorem Tool.line_delete (h : IsSingle x) : t.line .delete a x = .ok (t.removal x.name) := by
  cases t with
  | docker =>
    obtain ⟨c, hc⟩ := singleContainer_succeeds_iff.mpr h
    exact bind_eq_ok_iff.mpr ⟨c, hc, rfl⟩
  | aci group =>
    obtain ⟨c, hc⟩ := singleContainer_succeeds_iff.mpr h
    exact bind_eq_ok_iff.mpr ⟨c, hc, rfl⟩

theorem Tool.plannable_iff (t : Tool) : Plannable t.backend mode x ↔
    IsSingle x ∧ (t.backend = .aci → mode = .create → x.ports.length ≤ 1) := by
  cases t <;> cases mode <;> simp [Plannable, backend, target, Target.backend]

/-! ### Plans -/

theorem compile_tool (t : Tool) (o : Options) (mode : Mode) (a : Application) :
    compile t.target o mode a = (Invocation.ofServices (t.line mode a) a >>= fun calls =>
      .ok ⟨mode, .invocations t.backend calls⟩) := by
  cases t <;> cases mode <;> rfl

/-- A plan has one line a service, in order. -/
theorem compile_tool_ok_iff {p : Plan} : compile t.target o mode a = .ok p ↔
    ∃ calls, p = ⟨mode, .invocations t.backend calls⟩ ∧
      List.Forall₂ (fun x call => call.service = x.name ∧ t.line mode a x = .ok call.argv)
        a.services calls := by
  have hcall (x : Service) (call : Invocation) :
      (t.line mode a x >>= fun argv => .ok ⟨x.name, argv⟩) = .ok call ↔
        call.service = x.name ∧ t.line mode a x = .ok call.argv := by
    rw [bind_eq_ok_iff]
    constructor
    · rintro ⟨argv, hline, hcall⟩
      obtain rfl := Except.ok.inj hcall
      exact ⟨rfl, hline⟩
    · rintro ⟨hname, hline⟩
      exact ⟨call.argv, hline, by rw [← hname]⟩
  simp only [compile_tool, bind_eq_ok_iff, Invocation.ofServices, mapM_eq_ok_iff, hcall,
    Except.ok.injEq]
  constructor
  · rintro ⟨calls, hlines, rfl⟩
    exact ⟨calls, rfl, hlines⟩
  · rintro ⟨calls, rfl, hlines⟩
    exact ⟨calls, hlines, rfl⟩

/-- There is no plan when a service is unfit, and the first such one says why. -/
theorem compile_tool_error_iff : compile t.target o mode a = .error e ↔
    ∃ before x after, a.services = before ++ x :: after ∧
      (∀ y ∈ before, ∀ e', ¬ Unfit t.backend mode y e') ∧ Unfit t.backend mode x e := by
  rw [compile_tool, bind_ok_eq_error_iff, Invocation.ofServices, mapM_eq_error_iff]
  simp only [bind_ok_succeeds_iff, bind_ok_eq_error_iff, Tool.line_succeeds_iff,
    Tool.line_eq_error_iff]

/-- **The tools take down what they set up, service for service.**  There is a plan exactly when
each service is one container without replication or sharding, and to make container instances when
it has one port at most besides.  Otherwise the failure is that of the first service in order for
which this does not hold, and names it: its scale is told before its containers, and they before
its ports.  A plan has one command line a service, in order.  So when an application can be set up,
it can be taken down, and the lines that do this name the same services. -/
theorem compile_tool_unfit_first (t : Tool) (o : Options) (a : Application) :
    (∀ mode, (∃ p, compile t.target o mode a = .ok p) ↔ ∀ x ∈ a.services,
      IsSingle x ∧ (t.backend = .aci → mode = .create → x.ports.length ≤ 1)) ∧
    (∀ mode e, compile t.target o mode a = .error e ↔
      ∃ before x after, a.services = before ++ x :: after ∧
        (∀ y ∈ before, ∀ e', ¬ Unfit t.backend mode y e') ∧ Unfit t.backend mode x e ∧
          e.service? = some x.name) ∧
    (∀ mode p, compile t.target o mode a = .ok p ↔
      ∃ calls, p = ⟨mode, .invocations t.backend calls⟩ ∧
        List.Forall₂ (fun x call => call.service = x.name ∧ t.line mode a x = .ok call.argv)
          a.services calls) ∧
    ∀ o' created, compile t.target o .create a = .ok ⟨.create, .invocations t.backend created⟩ →
      compile t.target o' .delete a = .ok ⟨.delete, .invocations t.backend
        (created.map fun call => ⟨call.service, t.removal call.service⟩)⟩ := by
  refine ⟨fun mode => ?_, fun mode e => ?_, fun mode p => compile_tool_ok_iff, ?_⟩
  · rw [compile_succeeds_iff]
    exact forall₂_congr fun x _ => t.plannable_iff
  · rw [compile_tool_error_iff]
    constructor
    · rintro ⟨before, x, after, hservices, hbefore, hx⟩
      exact ⟨before, x, after, hservices, hbefore, hx, hx.service⟩
    · rintro ⟨before, x, after, hservices, hbefore, hx, -⟩
      exact ⟨before, x, after, hservices, hbefore, hx⟩
  · intro o' created hcreated
    obtain ⟨calls, hcalls, hlines⟩ := compile_tool_ok_iff.mp hcreated
    cases hcalls
    -- a line that sets a service up shows that it is one container, so that it can be taken down
    refine compile_tool_ok_iff.mpr ⟨_, rfl, List.forall₂_map_right_iff.mpr (hlines.imp ?_)⟩
    rintro x call ⟨hname, hline⟩
    exact ⟨hname, by rw [hname, Tool.line_delete (Tool.isSingle_of_line hline)]⟩

end Rollout.Plan
