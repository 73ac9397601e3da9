/-
What is done when a plan is carried out, for every backend.

* `Action.Keeps` and `Action.Works` sort the actions; `only_execute_dry` and `only_dump`: a dry run
  and a dump only keep something, and call no backend; `only_execute`: a plan is carried out by
  work alone;
* `Plan.Applied` lists what is done when every step of a plan succeeds, and `applied_of_path` says
  that nothing else ends with success.
-/
import Rollout.Proofs.Plan.Commands

namespace Rollout

/-- An action that keeps something: in a file, in a directory that is made for it, or on the
standard output. -/
def Action.Keeps : Action → Prop
  | storeFile .. | makeDirs _ | print _ => True
  | _ => False

/-- An action that keeps something, calls the cluster or runs a command of a plan. -/
def Action.Works : Action → Prop
  | storeFile .. | makeDirs _ | print _ | cluster .. | command _ => True
  | _ => False

theorem Action.Keeps.works {x : Action} (h : x.Keeps) : x.Works := by
  cases x <;> first | exact h | exact h.elim

namespace Plan

open Host (CommandLine Program)

variable {trace : List Event} {P : Action → Prop} {α ε : Type}

/-! ### Only some actions -/

theorem only_orFail {e : ε → Error} {p : Run (Except ε α)} (h : p.Only P) :
    (orFail e p).run.Only P :=
  h.bind fun _ => trivial

theorem only_printOrFail (content : Bytes) : (printOrFail content).run.Only Action.Keeps :=
  only_orFail (.take trivial)

theorem only_persist (op : Operation) (a : Artifacts) : (op.persist a).run.Only Action.Keeps := by
  cases a with
  | directory dir => exact only_orFail (.take trivial)
  | stdout => exact only_printOrFail _

theorem only_dumpAll (dir : String) (ops : List Operation) :
    (Operation.dumpAll dir ops).run.Only Action.Keeps := by
  refine .bindExcept (only_orFail (.take trivial)) fun _ => ?_
  induction ops with
  | nil => trivial
  | cons op ops ih => exact .bindExcept (only_persist op _) fun _ => ih

theorem only_performAll {c : Kubernetes.Connection} {a : Artifacts} {xs : List Effect}
    (h : ∀ x ∈ xs, (x.perform c a).run.Only P) : (Effect.performAll c a xs).run.Only P := by
  induction xs with
  | nil => trivial
  | cons x xs ih =>
    have hx := h x List.mem_cons_self
    exact .bindExcept hx fun _ => ih fun y hy => h y (List.mem_cons_of_mem x hy)

theorem only_perform (c : Kubernetes.Connection) (a : Artifacts) (x : Effect) :
    (x.perform c a).run.Only Action.Works := by
  cases x with
  | write op => exact (only_persist op a).imp fun _ => Action.Keeps.works
  | call op => exact only_orFail (.take trivial)

theorem mem_schedule_dry {x : Effect} {ops : List Operation} (h : x ∈ schedule true ops) :
    ∃ op, x = .write op := by
  obtain ⟨op, -, hx⟩ := List.mem_flatMap.mp h
  exact ⟨op, List.mem_singleton.mp hx⟩

theorem only_executeLine_dry (argv : CommandLine) :
    (Invocation.executeLine true argv).run.Only Action.Keeps :=
  only_printOrFail _

theorem only_executeLine (argv : CommandLine) :
    (Invocation.executeLine false argv).run.Only Action.Works := by
  refine .bindExcept (only_orFail (.take trivial)) fun output => ?_
  refine .bindExcept ((only_printOrFail _).imp fun _ => Action.Keeps.works) fun _ => ?_
  cases output.success <;> trivial

theorem only_executeAll {dryRun : Bool} {calls : List Invocation}
    (h : ∀ argv, (Invocation.executeLine dryRun argv).run.Only P) :
    (Invocation.executeAll dryRun calls).run.Only P := by
  induction calls with
  | nil => trivial
  | cons i calls ih => exact .bindExcept (h i.argv) fun _ => ih

/-- A dry run keeps artifacts and prints, and calls no backend. -/
theorem only_execute_dry (p : Plan) : (p.execute true).run.Only Action.Keeps := by
  obtain ⟨mode, steps⟩ := p
  cases steps with
  | operations c a ops =>
    show (Operation.executeAll c a true ops).run.Only _
    rw [executeAll_eq]
    refine only_performAll fun x hx => ?_
    obtain ⟨op, rfl⟩ := mem_schedule_dry hx
    exact only_persist op a
  | invocations _ calls => exact only_executeAll only_executeLine_dry

theorem only_execute (p : Plan) (dryRun : Bool) : (p.execute dryRun).run.Only Action.Works := by
  cases dryRun with
  | true => exact (only_execute_dry p).imp fun _ => Action.Keeps.works
  | false =>
    obtain ⟨mode, steps⟩ := p
    cases steps with
    | operations c a ops =>
      show (Operation.executeAll c a false ops).run.Only _
      rw [executeAll_eq]
      exact only_performAll fun x _ => only_perform c a x
    | invocations _ calls => exact only_executeAll only_executeLine

theorem only_dump (p : Plan) (dir : String) : (p.dump dir).run.Only Action.Keeps := by
  obtain ⟨mode, steps⟩ := p
  cases steps with
  | operations _ _ ops => exact only_dumpAll dir ops
  | invocations _ _ => trivial

/-! ### Success -/

/-- What is done when every step of a plan is taken with success. -/
def Applied (p : Plan) (trace : List Event) : Prop :=
  match p.steps with
  | .operations c a ops => trace = (schedule false ops).map (Effect.success c a)
  | .invocations _ calls => AllRan calls trace

/-- When a plan is carried out with success, every step was taken with success, in order. -/
theorem applied_of_path {p : Plan} {u : Unit}
    (h : Program.Path (p.execute false).run trace (.ok u)) : p.Applied trace := by
  obtain ⟨mode, steps⟩ := p
  cases steps with
  | operations c a ops =>
    have hpath : Program.Path (Operation.executeAll c a false ops).run trace (.ok u) := h
    rw [executeAll_eq, path_performAll_iff] at hpath
    rcases hpath with ⟨htrace, -⟩ | ⟨_, _, _, _, _, _, he⟩
    · exact htrace
    · exact absurd he nofun
  | invocations _ calls =>
    have hpath : Program.Path (Invocation.executeAll false calls).run trace (.ok u) := h
    rw [path_executeAll_iff, carries_iff] at hpath
    rcases hpath with ⟨hall, -⟩ | ⟨_, _, _, _, _, _, _, _, _, _, he⟩
    · exact hall
    · exact absurd he nofun

end Plan

end Rollout
