/-
Carrying out a plan for a cluster, whatever the surroundings answer.

What there is to do is a list of effects: the artifact of an operation is written before the cluster
is called for it, and in a dry run the call is left out.  Effects are done in order up to the first
that fails, and its failure is the result.

* `schedule` lists the effects of operations, `UpToFailure` says what doing some of them comes to;
* `executeAll_eq`: operations are carried out by doing the effects of their schedule;
* `path_performAll_iff`: effects are done `UpToFailure`, and every way to fail is possible;
* `execute_upToFailure` draws the conclusion for plans, and says what must have succeeded before
  the cluster is called.
-/
import Rollout.Plan.Basic
import Rollout.Proofs.Host.Program

namespace Rollout.Plan

open Kubernetes (Call ClusterError Connection)
open Host (Program)

/-- One thing that is done to carry out a plan. -/
inductive Effect where
  /-- The artifact of an operation is written. -/
  | write (op : Operation)
  /-- The cluster is called for an operation. -/
  | call (op : Operation)
  deriving DecidableEq, Repr

/-- The effects of operations, in order. -/
def schedule (dryRun : Bool) (ops : List Operation) : List Effect :=
  ops.flatMap fun op => if dryRun then [.write op] else [.write op, .call op]

/-- An action with its answer. -/
abbrev Event := Program.Event Action Action.Answer

namespace Effect

/-- What an effect may fail with. -/
abbrev Failure : Effect → Type
  | write _ => Host.Error
  | call _ => ClusterError

/-- The action that an effect takes, with the answer to it. -/
def event (c : Connection) (a : Artifacts) : (x : Effect) → Except x.Failure Unit → Event
  | write op, r =>
    match a with
    | .directory dir => ⟨.storeFile (artifactPath dir op.artifact) (render op.document), r⟩
    | .stdout => ⟨.print (render op.document), r⟩
  | call op, r => ⟨.cluster c op.call, r⟩

/-- An effect that succeeds. -/
def success (c : Connection) (a : Artifacts) (x : Effect) : Event := x.event c a (.ok ())

/-- The error of a plan when an effect fails. -/
def error (a : Artifacts) : (x : Effect) → x.Failure → Error
  | write op, e =>
    match a with
    | .directory dir => .write (artifactPath dir op.artifact) e
    | .stdout => .write "<stdout>" e
  | call _, e => .cluster e

/-- Does one effect. -/
def perform (c : Connection) (a : Artifacts) : Effect → RunExcept Error Unit
  | write op => op.persist a
  | call op => op.apply c

/-- Does effects in order. -/
def performAll (c : Connection) (a : Artifacts) : List Effect → RunExcept Error Unit
  | [] => pure ()
  | x :: rest => do
    x.perform c a
    performAll c a rest

end Effect

/-- Effects are done in order: all of them, or those up to the first that fails, whose failure is
the result. -/
def UpToFailure (c : Connection) (a : Artifacts) (xs : List Effect) (trace : List Event)
    (result : Except Error Unit) : Prop :=
  (trace = xs.map (Effect.success c a) ∧ result = .ok ()) ∨
    ∃ done x rest e, xs = done ++ x :: rest ∧
      trace = done.map (Effect.success c a) ++ [x.event c a (.error e)] ∧
      result = .error (x.error a e)

variable {c : Connection} {a : Artifacts} {dryRun : Bool} {ops : List Operation}
  {xs : List Effect} {trace : List Event} {result : Except Error Unit}

/-! ### One effect after another -/

theorem upToFailure_nil : UpToFailure c a [] trace result ↔ trace = [] ∧ result = .ok () := by
  constructor
  · rintro (h | ⟨done, x, rest, e, hxs, -⟩)
    · exact h
    · exact absurd hxs (by simp)
  · exact fun h => .inl h

theorem upToFailure_cons {x : Effect} :
    UpToFailure c a (x :: xs) trace result ↔
      (∃ e, trace = [x.event c a (.error e)] ∧ result = .error (x.error a e)) ∨
        ∃ rest, trace = x.success c a :: rest ∧ UpToFailure c a xs rest result := by
  constructor
  · rintro (⟨rfl, rfl⟩ | ⟨done, y, rest, e, hxs, rfl, rfl⟩)
    · exact .inr ⟨_, rfl, .inl ⟨rfl, rfl⟩⟩
    · cases done with
      | nil =>
        obtain ⟨rfl, rfl⟩ := List.cons_eq_cons.mp hxs
        exact .inl ⟨e, rfl, rfl⟩
      | cons z done =>
        obtain ⟨rfl, rfl⟩ := List.cons_eq_cons.mp hxs
        exact .inr ⟨_, rfl, .inr ⟨done, y, rest, e, rfl, rfl, rfl⟩⟩
  · rintro (⟨e, rfl, rfl⟩ | ⟨_, rfl, ⟨rfl, rfl⟩ | ⟨done, y, rest, e, rfl, rfl, rfl⟩⟩)
    · exact .inr ⟨[], x, xs, e, rfl, rfl, rfl⟩
    · exact .inl ⟨rfl, rfl⟩
    · exact .inr ⟨x :: done, y, rest, e, rfl, rfl, rfl⟩

/-- Everything before an event of a run has succeeded, and is what the effects begin with. -/
theorem UpToFailure.before {before after : List Event} {v : Event}
    (h : UpToFailure c a xs trace result) (ht : trace = before ++ v :: after) :
    ∃ done x rest r, xs = done ++ x :: rest ∧ v = x.event c a r ∧
      before = done.map (Effect.success c a) := by
  induction xs generalizing trace before with
  | nil =>
    obtain ⟨rfl, -⟩ := upToFailure_nil.mp h
    exact absurd ht (by simp)
  | cons x xs ih =>
    rcases upToFailure_cons.mp h with ⟨e, rfl, -⟩ | ⟨rest, rfl, hrest⟩
    · cases before with
      | nil => exact ⟨[], x, xs, _, rfl, (List.cons_eq_cons.mp ht).1.symm, rfl⟩
      | cons u before => simp at ht
    · cases before with
      | nil => exact ⟨[], x, xs, _, rfl, (List.cons_eq_cons.mp ht).1.symm, rfl⟩
      | cons u before =>
        obtain ⟨hu, hsplit⟩ := List.cons_eq_cons.mp ht
        obtain ⟨done, y, later, r, hxs, hv, hbefore⟩ := ih hrest hsplit
        exact ⟨x :: done, y, later, r, by rw [hxs, List.cons_append], hv,
          by rw [← hu, hbefore, List.map_cons]⟩

/-- An effect is done with any answer, and its failure is the error of the plan. -/
theorem path_perform_iff {x : Effect} :
    Program.Path (x.perform c a).run trace result ↔
      (∃ e, trace = [x.event c a (.error e)] ∧ result = .error (x.error a e)) ∨
        trace = [x.success c a] ∧ result = .ok () := by
  -- in each case one action is taken, and the program is done with what its answer means
  have hone (y : Action) (f : y.Answer → Except Error Unit) :
      Program.Path (Program.act y fun r => Program.done (f r)) trace result ↔
        ∃ r, trace = [⟨y, r⟩] ∧ result = f r := by
    rw [Program.path_act_iff]
    constructor
    · rintro ⟨r, rest, rfl, h⟩
      obtain ⟨rfl, rfl⟩ := Program.path_done_iff.mp h
      exact ⟨r, rfl, rfl⟩
    · rintro ⟨r, rfl, rfl⟩
      exact ⟨r, [], rfl, .done _⟩
  have hanswer {ε : Type} (p : Except ε Unit → Prop) :
      (∃ r, p r) ↔ (∃ e, p (.error e)) ∨ p (.ok ()) := by
    constructor
    · rintro ⟨e | ⟨⟩, h⟩
      · exact .inl ⟨e, h⟩
      · exact .inr h
    · rintro (⟨e, h⟩ | h)
      · exact ⟨_, h⟩
      · exact ⟨_, h⟩
  cases x with
  | call op => exact (hone _ _).trans (hanswer _)
  | write op => cases a <;> exact (hone _ _).trans (hanswer _)

/-- Effects are done up to the first that fails, and each of them may be that one. -/
theorem path_performAll_iff :
    Program.Path (Effect.performAll c a xs).run trace result ↔
      UpToFailure c a xs trace result := by
  induction xs generalizing trace with
  | nil => exact Program.path_done_iff.trans upToFailure_nil.symm
  | cons x xs ih =>
    rw [Effect.performAll, Program.path_bindExcept_iff, upToFailure_cons]
    constructor
    · rintro (⟨e, rfl, hx⟩ | ⟨first, _, rest, rfl, hx, hrest⟩)
      · rcases path_perform_iff.mp hx with hfail | ⟨-, hok⟩
        · exact .inl hfail
        · exact absurd hok nofun
      · rcases path_perform_iff.mp hx with ⟨e, -, hfail⟩ | ⟨rfl, -⟩
        · exact absurd hfail nofun
        · exact .inr ⟨rest, rfl, ih.mp hrest⟩
    · rintro (⟨e, rfl, rfl⟩ | ⟨rest, rfl, h⟩)
      · exact .inl ⟨_, rfl, path_perform_iff.mpr (.inl ⟨e, rfl, rfl⟩)⟩
      · exact .inr ⟨_, (), rest, rfl, path_perform_iff.mpr (.inr ⟨rfl, rfl⟩), ih.mpr h⟩

/-! ### Operations -/

theorem schedule_cons (dryRun : Bool) (op : Operation) (ops : List Operation) :
    schedule dryRun (op :: ops)
      = (if dryRun then [.write op] else [.write op, .call op]) ++ schedule dryRun ops :=
  List.flatMap_cons

/-- Operations are carried out by doing the effects of their schedule. -/
theorem executeAll_eq (c : Connection) (a : Artifacts) (dryRun : Bool) (ops : List Operation) :
    Operation.executeAll c a dryRun ops = Effect.performAll c a (schedule dryRun ops) := by
  induction ops with
  | nil => rfl
  | cons op ops ih =>
    rw [Operation.executeAll, ih, schedule_cons]
    cases dryRun <;> rfl

/-- The cluster is only called when it is no dry run, and each operation is called for right after
its artifact was written, when everything was done for those before it. -/
theorem schedule_eq_append_call {done rest : List Effect} {op : Operation}
    (h : schedule dryRun ops = done ++ .call op :: rest) :
    dryRun = false ∧ ∃ i, ops[i]? = some op ∧
      done = schedule false (ops.take i) ++ [.write op] := by
  induction ops generalizing done with
  | nil => exact absurd h (by simp [schedule])
  | cons first ops ih =>
    rw [schedule_cons] at h
    cases dryRun with
    | true =>
      -- the only effect of the first operation is a write
      simp only [if_true, List.cons_append, List.nil_append] at h
      cases done with
      | nil => exact absurd (List.cons_eq_cons.mp h).1 nofun
      | cons _ done => exact absurd (ih (List.cons_eq_cons.mp h).2).1 nofun
    | false =>
      simp only [Bool.false_eq_true, if_false, List.cons_append, List.nil_append] at h
      refine ⟨rfl, ?_⟩
      match done with
      | [] => exact absurd (List.cons_eq_cons.mp h).1 nofun
      | [x] =>
        obtain ⟨hwrite, hrest⟩ := List.cons_eq_cons.mp h
        obtain rfl := Effect.call.inj (List.cons_eq_cons.mp hrest).1
        exact ⟨0, rfl, by rw [← hwrite]; rfl⟩
      | x :: y :: done =>
        obtain ⟨hwrite, hrest⟩ := List.cons_eq_cons.mp h
        obtain ⟨hcall, hlater⟩ := List.cons_eq_cons.mp hrest
        obtain ⟨-, i, hi, rfl⟩ := ih hlater
        exact ⟨i + 1, hi, by rw [List.take_succ_cons, schedule_cons, ← hwrite, ← hcall]; rfl⟩

theorem event_eq_cluster {x : Effect} {r : Except x.Failure Unit} {d : Connection} {call : Call}
    {s : Except ClusterError Unit} (h : ⟨.cluster d call, s⟩ = x.event c a r) :
    ∃ op, x = .call op ∧ d = c ∧ call = op.call := by
  cases x with
  | write op => cases a <;> cases h
  | call op =>
    cases h
    exact ⟨op, rfl, rfl, rfl⟩

/-! ### Plans -/

/-- **A plan is carried out up to the first failure.**  Whatever is answered, the artifact of each
operation is written and then the cluster is called for it, or in a dry run not called, one
operation after another; the first failure ends it all and is the error returned.  So when the
cluster is called for an operation, its artifact was written, and all was done and has succeeded
for the operations before it. -/
theorem execute_upToFailure (mode : Mode) (c : Connection) (a : Artifacts)
    (ops : List Operation) (dryRun : Bool) :
    (∀ trace result,
      Program.Path (execute ⟨mode, .operations c a ops⟩ dryRun).run trace result ↔
        UpToFailure c a (schedule dryRun ops) trace result) ∧
      ∀ before d call s after result,
        Program.Path (execute ⟨mode, .operations c a ops⟩ dryRun).run
            (before ++ ⟨.cluster d call, s⟩ :: after) result →
          dryRun = false ∧ ∃ (i : Nat) (op : Operation),
            ops[i]? = some op ∧ d = c ∧ call = op.call ∧
            before
              = (schedule false (ops.take i) ++ [Effect.write op]).map (Effect.success c a) := by
  have hpath : ∀ trace result,
      Program.Path (execute ⟨mode, .operations c a ops⟩ dryRun).run trace result ↔
        UpToFailure c a (schedule dryRun ops) trace result := by
    intro trace result
    rw [← path_performAll_iff, ← executeAll_eq]
    rfl
  refine ⟨hpath, ?_⟩
  intro before d call s after result h
  obtain ⟨done, x, rest, r, hschedule, hv, rfl⟩ := ((hpath _ _).mp h).before rfl
  obtain ⟨op, rfl, rfl, rfl⟩ := event_eq_cluster hv
  obtain ⟨hdry, i, hi, rfl⟩ := schedule_eq_append_call hschedule
  exact ⟨hdry, i, op, hi, rfl, rfl, rfl⟩

end Rollout.Plan
