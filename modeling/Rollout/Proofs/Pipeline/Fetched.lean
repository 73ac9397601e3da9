/-
What a run fetches from a registry breaks no rule.

A run checks every specification, also those that come from a registry.  `served_valid` says that
this check never fails on a registry that only took requests: it holds nothing that breaks a rule,
and what a client reads off its answers is what it holds.

* `failsOnly_proceed`: after the check, a run does not fail for a broken rule;
* `path_run_registered`: a run from a registry comes down to what its `get` is answered.
-/
import Rollout.Proofs.Pipeline.Course
import Rollout.Proofs.Registry.Validity

namespace Rollout.Pipeline

open Host (Program)
open Host.Program (FailsOnly)
open Http (Request)
open Plan (Event)
open Registry (Addressable Call Store ask?)
open Spec (Application)

variable {s : Settings} {α ε : Type}

/-! ### Failures -/

/-- The failure is another one than a broken rule. -/
def Error.Other (e : Error) : Prop := ∀ vs, e ≠ .invalid vs

theorem failsOnly_failingAs {P : Error → Prop} {e : ε → Error} (h : ∀ x, P (e x))
    (p : RunExcept ε α) : FailsOnly P (failingAs e p) := by
  refine (Program.Returns.any p.run).bind fun r _ => ?_
  cases r with
  | error x => exact fun _ he => Except.error.inj he ▸ h x
  | ok a => exact fun _ he => nomatch he

theorem failsOnly_findTarget (s : Settings) : FailsOnly Error.Other (findTarget s) := by
  unfold findTarget
  cases s.executor with
  | kubernetes =>
    refine .bind ?_ fun c => .pure _
    unfold findCluster
    cases s.kubeconfig with
    | none => exact .throw nofun
    | some path =>
      refine .bind (failsOnly_failingAs (fun _ => nofun) _) fun c => ?_
      cases c.check with
      | ok u => exact .pure c
      | error e => exact .throw nofun
  | aci => exact .pure _
  | docker => exact .pure _

theorem failsOnly_carryOut (s : Settings) (p : Plan) (a : Application) :
    FailsOnly Error.Other (carryOut s p a) := by
  unfold carryOut
  cases s.dump with
  | some dir => exact .bind (failsOnly_failingAs (fun _ => nofun) _) fun _ => .lift _
  | none =>
    refine .bind (failsOnly_failingAs (fun _ => nofun) _) fun _ => ?_
    cases s.dryRun with
    | true => exact .pure ()
    | false => exact .lift _

theorem failsOnly_unregister (s : Settings) : FailsOnly Error.Other (unregister s) := by
  unfold unregister
  split
  · split
    · exact failsOnly_failingAs (fun _ => nofun) _
    · exact .pure ()
  · exact .pure ()

theorem failsOnly_deploy (s : Settings) (t : Target) (ns : String) (a : Application) :
    FailsOnly Error.Other (deploy s t ns a) := by
  unfold deploy
  cases planFor s t ns a with
  | error e => exact .throw nofun
  | ok p => exact .bind (failsOnly_carryOut s p a) fun _ => failsOnly_unregister s

/-- After the check, a run does not fail for a broken rule. -/
theorem failsOnly_proceed (s : Settings) (a : Application) :
    FailsOnly Error.Other (proceed s a) := by
  have hattach (t : Target) (ns : String) : FailsOnly Error.Other
      (if s.attach then failingAs .plan (Plan.attach t ns s.logFilters a) else pure ()) := by
    cases s.attach with
    | true => exact failsOnly_failingAs (fun _ => nofun) _
    | false => exact .pure ()
  refine .bind (failsOnly_findTarget s) fun (t, ns) => ?_
  cases hdeploy : s.deploy with
  | true => exact .bind (failsOnly_deploy s t ns a) fun _ => hattach t ns
  | false => exact hattach t ns

/-! ### Runs from a registry -/

/-- A run from a registry comes down to what its `get` is answered. -/
theorem path_run_registered {base name : String} (hs : s.source = .registry name)
    (hurl : s.registryUrl = some base)
    {answer : Except Registry.ClientError (Option Application)} {trace : List Event}
    {r : Except Error Unit}
    (h : Program.Path (run s).run (⟨.registry base (.get name), answer⟩ :: trace) r) :
    (∃ e, fetched name answer = .error e ∧ r = .error e)
      ∨ ∃ a, fetched name answer = .ok a ∧ Program.Path (proceed s a).run trace r := by
  rw [run, hs] at h
  rcases Program.path_bindExcept_iff.mp h with
    ⟨e, rfl, hget⟩ | ⟨first, a, rest, hsplit, hget, hrest⟩
  · rw [run_obtainRegistered hurl] at hget
    obtain ⟨_, _, hevent, hdone⟩ := Program.path_act_iff.mp hget
    obtain ⟨-, he⟩ := Program.path_done_iff.mp hdone
    cases hevent
    exact .inl ⟨e, he.symm, rfl⟩
  · rw [run_obtainRegistered hurl] at hget
    obtain ⟨_, _, rfl, hdone⟩ := Program.path_act_iff.mp hget
    obtain ⟨rfl, ha⟩ := Program.path_done_iff.mp hdone
    cases hsplit
    exact .inr ⟨a, ha.symm, hrest⟩

/-- Only a specification that was fetched can break a rule. -/
theorem fetched_ne_invalid {name : String}
    {answer : Except Registry.ClientError (Option Application)}
    (h : ∀ a, answer = .ok (some a) → a.validate = .ok ()) (vs : List Spec.Violation) :
    fetched name answer ≠ .error (.invalid vs) := by
  intro he
  rcases answer with e | _ | a
  · cases he
  · cases he
  · rw [fetched, h a rfl] at he
    cases he

/-- **A registry serves what is valid.**  Whatever requests a registry took since it was empty, each
of its specifications is found under its own name and breaks no rule.  A `GET` of a name that is
answered with the status 200 gives a client just the specification of the name.  So the check of a
run passes whatever the run was given by the registry, and the run does not fail for a broken
rule. -/
theorem served_valid (history : List Request) :
    let store := Store.after {} history
    (∀ a ∈ store.specs, store.get? a.name = some a ∧ a.validate = .ok ())
    ∧ (∀ name a, store.get? name = some a → a.name = name ∧ a.validate = .ok ())
    ∧ (∀ name r, ask? r = some (.get name) → (store.respond r).1.status = 200 →
        ∃ a, store.get? name = some a ∧ (Call.get name).answer (store.respond r).1 = .ok (some a))
    ∧ ∀ (s : Settings) (base name : String), s.source = .registry name →
        s.registryUrl = some base →
        (∀ a, (store.serve base (.get name)).1 = .ok (some a) → requireValid a = pure ())
        ∧ ∀ trace r, Program.Path (run s).run
            (⟨.registry base (.get name), (store.serve base (.get name)).1⟩ :: trace) r →
          ∀ vs, r ≠ .error (.invalid vs) := by
  intro store
  have hvalid : store.Valid := Store.valid_empty.after history
  have hserved (base name : String) {a : Application}
      (ha : (store.serve base (.get name)).1 = .ok (some a)) : a.validate = .ok () := by
    -- the name may have led to the entry of another one
    obtain ⟨other, hother⟩ := Store.exists_get?_of_serve ha
    exact (hvalid.get? hother).2
  refine ⟨fun a ha => ⟨(hvalid.sorted.mem_specs_iff a).mp ha, hvalid.rules a ha⟩,
    fun name a => hvalid.get?, fun name r hask hstatus => Store.answer_of_status hask hstatus name,
    fun s base name hs hurl => ⟨fun a ha => ?_, fun trace r h vs => ?_⟩⟩
  · rw [requireValid, hserved base name ha]
  · rintro rfl
    rcases path_run_registered hs hurl h with ⟨e, he, hr⟩ | ⟨a, -, hproceed⟩
    · cases hr
      exact fetched_ne_invalid (fun a => hserved base name) vs he
    · exact (failsOnly_proceed s a).of_path hproceed vs rfl

/-- A shop is put into an empty registry, and a run fetches it from there. -/
theorem served_valid_afterPut :
    ∃ r, (Call.put { name := "shop" }).request "http://localhost:8080" = .ok r
      ∧ ((Store.after {} [r]).serve "http://localhost:8080" (.get "shop")).1
        = .ok (some { name := "shop" })
      ∧ requireValid { name := "shop" } = pure () := by
  have hbase := Registry.atRoot_localhost
  have hname : Addressable "shop" := by decide
  obtain ⟨r, hr, -⟩ := hbase.exists_request (c := .put { name := "shop" }) rfl
  have hstore : Store.after {} [r] = Store.insert {} { name := "shop" } := by
    have hput := Store.serve_put hbase hname {} (a := { name := "shop" }) rfl (by decide)
      (by decide)
    rw [Store.serve, hr] at hput
    exact congrArg Prod.snd hput
  have hget : ((Store.after {} [r]).serve "http://localhost:8080" (.get "shop")).1
      = .ok (some { name := "shop" }) := by
    rw [Store.serve_get hbase hname, hstore]
    rfl
  let fromRegistry : Settings :=
    { source := .registry "shop", registryUrl := some "http://localhost:8080" }
  exact ⟨r, hr, hget, ((served_valid [r]).2.2.2 fromRegistry _ _ rfl rfl).1 _ hget⟩

end Rollout.Pipeline
