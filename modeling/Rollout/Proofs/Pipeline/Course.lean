/-
The course of a run, whatever its surroundings answer.

A run gets its specification, registers it where that is asked for, finds its target, and then
deploys and attaches.  It may stop after any of these, and it goes on only after success.

* `Gives` says which event gives a run its specification, `Registers` which calls register it;
* `Obtains`, `Unregisters`, `Proceeds` and `Course` list the ways in which a part of a run and the
  whole of it can go, with what is known in each; there is one lemma a part, `path_…`, that says so;
* `course_of_path`: every run goes one of these ways.

Design notes: what is true of all runs is read off the cases of `Course`, so that only this module
follows the steps of the pipeline.
-/
import Rollout.Pipeline.Basic
import Rollout.Proofs.Plan.Applied

namespace Rollout

/-- An action that only looks something up, in a file or in a registry. -/
def Action.Looks : Action → Prop
  | loadFile _ | registry _ (.get _) | registry _ .list => True
  | _ => False

/-- An action that shows logs. -/
def Action.Attaches : Action → Prop
  | stream argv => ∃ service, argv = Plan.Docker.logsLine service
  | streamForever argv _ => ∃ group service, argv = Plan.Aci.logsLine group service
  | follow .. => True
  | _ => False

namespace Pipeline

open Host (Program)
open Plan (Event)
open Spec (Application)

variable {s : Settings} {a : Application} {trace : List Event} {α ε : Type}

/-- An event gives a run its specification. -/
inductive Gives (s : Settings) : Event → Application → Prop
  | file {path : String} {content : Bytes} {a : Application} (source : s.source = .file path)
      (reads : Application.ofContent path content = .ok a) :
      Gives s ⟨.loadFile path, .ok content⟩ a
  | registry {base name : String} {a : Application} (source : s.source = .registry name)
      (url : s.registryUrl = some base) :
      Gives s ⟨.registry base (.get name), .ok (some a)⟩ a

/-- A run registers the specification of a file at a registry, unless it takes it down. -/
structure Settings.RegistersAt (s : Settings) (base : String) : Prop where
  file : ∃ path, s.source = .file path
  url : s.registryUrl = some base
  keeps : s.delete = false

/-- The calls that register a specification: none, a look at what is there, or a look and, since
something else is there or nothing, the storing of the specification. -/
inductive Registers (s : Settings) (a : Application) : List Event → Prop
  | unasked (h : ∀ base, ¬ s.RegistersAt base) : Registers s a []
  | unknown {base : String} (h : s.RegistersAt base) (e : Registry.ClientError) :
      Registers s a [⟨.registry base (.get a.name), .error e⟩]
  | same {base : String} (h : s.RegistersAt base) :
      Registers s a [⟨.registry base (.get a.name), .ok (some a)⟩]
  | stored {base : String} (h : s.RegistersAt base) {existing : Option Application}
      (other : existing ≠ some a) (answer : Except Registry.ClientError Application) :
      Registers s a
        [⟨.registry base (.get a.name), .ok existing⟩, ⟨.registry base (.put a), answer⟩]

/-- What is done until the specification is there, breaks no rule and was registered where that is
asked for. -/
inductive Prepares (s : Settings) (a : Application) : List Event → Prop
  | intro {given : Event} {calls : List Event} (gives : Gives s given a)
      (valid : a.validate = .ok ()) (registers : Registers s a calls) :
      Prepares s a (given :: calls)

/-- A specification has yet to be stored: it was read from a file, and the look at the registry
found another one under its name, or none. -/
structure Unstored (s : Settings) (a : Application) (base : String) (given look : Event) :
    Prop where
  gives : Gives s given a
  valid : a.validate = .ok ()
  registers : s.RegistersAt base
  other : ∃ existing, existing ≠ some a ∧ look = ⟨.registry base (.get a.name), .ok existing⟩

/-- How a run comes by its specification. -/
inductive Obtains (s : Settings) : List Event → Except Error Application → Prop
  /-- There is none, or it breaks a rule. -/
  | nothing {trace : List Event} {e : Error} (looks : ∀ v ∈ trace, v.1.Looks)
      (short : trace.length ≤ 1) : Obtains s trace (.error e)
  /-- It could not be registered. -/
  | unregistered {a : Application} {first : List Event} {e : Error}
      (prepares : Prepares s a first) : Obtains s first (.error e)
  | obtained {a : Application} {first : List Event} (prepares : Prepares s a first) :
      Obtains s first (.ok a)

/-- A run takes a specification that came from a registry out of it, if it takes it down for
real. -/
structure Settings.UnregistersAt (s : Settings) (base name : String) : Prop where
  source : s.source = .registry name
  url : s.registryUrl = some base
  delete : s.delete = true
  real : s.dryRun = false
  noDump : s.dump = none

/-- The call that takes a specification out of the registry, if it is made. -/
inductive Unregisters (s : Settings) : List Event → Prop
  | kept (h : ∀ base name, ¬ s.UnregistersAt base name) : Unregisters s []
  | removed {base name : String} (h : s.UnregistersAt base name)
      (answer : Except Registry.ClientError Unit) :
      Unregisters s [⟨.registry base (.delete name), answer⟩]

/-- Files are looked at. -/
def Files (trace : List Event) : Prop := ∀ v ∈ trace, ∃ path, v.1 = .loadFile path

/-- Logs are shown. -/
def Logs (trace : List Event) : Prop := ∀ v ∈ trace, v.1.Attaches

/-- The ways in which a run can go on once its specification is there. -/
inductive Proceeds (s : Settings) (a : Application) : List Event → Except Error Unit → Prop
  /-- There is no target, or the specification could not be planned. -/
  | stopped {found : List Event} {e : Error} (files : Files found) : Proceeds s a found (.error e)
  /-- The plan could not be carried out. -/
  | failed {found carried : List Event} {t : Target} {ns : String} {p : Plan} {e : Error}
      (files : Files found) (backend : t.backend = s.executor) (deploy : s.deploy = true)
      (plan : planFor s t ns a = .ok p)
      (carries : Program.Path (carryOut s p a).run carried (.error e)) :
      Proceeds s a (found ++ carried) (.error e)
  /-- The plan was carried out. -/
  | deployed {found carried removal logs : List Event} {t : Target} {ns : String} {p : Plan}
      {r : Except Error Unit} (files : Files found) (backend : t.backend = s.executor)
      (deploy : s.deploy = true) (plan : planFor s t ns a = .ok p)
      (carries : Program.Path (carryOut s p a).run carried (.ok ()))
      (unregisters : Unregisters s removal) (attaches : Logs logs) :
      Proceeds s a (found ++ carried ++ removal ++ logs) r
  /-- Deploying was not asked for. -/
  | undeployed {found logs : List Event} {r : Except Error Unit} (files : Files found)
      (deploy : s.deploy = false) (attaches : Logs logs) : Proceeds s a (found ++ logs) r

/-- The ways in which a run can go. -/
inductive Course (s : Settings) : List Event → Except Error Unit → Prop
  /-- The registry's specifications are listed, as far as that succeeds. -/
  | listing {trace : List Event} {r : Except Error Unit} (source : s.source = .list)
      (lists : ∀ v ∈ trace, v.1.Looks ∨ ∃ content, v.1 = .print content) : Course s trace r
  /-- There is no specification, or it breaks a rule. -/
  | nothing {trace : List Event} {e : Error} (looks : ∀ v ∈ trace, v.1.Looks)
      (short : trace.length ≤ 1) : Course s trace (.error e)
  /-- The specification could not be registered. -/
  | unregistered {a : Application} {first : List Event} {e : Error}
      (prepares : Prepares s a first) : Course s first (.error e)
  | proceeded {a : Application} {first later : List Event} {r : Except Error Unit}
      (prepares : Prepares s a first) (proceeds : Proceeds s a later r) :
      Course s (first ++ later) r

theorem Gives.unique {v : Event} {b : Application} (ha : Gives s v a) (hb : Gives s v b) :
    a = b := by
  cases ha with
  | file hs hread =>
    cases hb with
    | file _ hread' => exact Except.ok.inj (hread.symm.trans hread')
  | registry => cases hb with | registry => rfl

theorem Gives.looks {v : Event} (h : Gives s v a) : v.1.Looks := by
  cases h <;> trivial

theorem Files.looks (h : Files trace) : ∀ v ∈ trace, v.1.Looks := by
  intro v hv
  obtain ⟨path, hpath⟩ := h v hv
  rw [hpath]
  trivial

/-- Until a specification is there things are only looked up, but for the storing of it. -/
theorem Prepares.looks_or_stores {first : List Event} (h : Prepares s a first) :
    (∀ v ∈ first, v.1.Looks) ∨ ∃ base given look answer,
      first = [given, look, ⟨.registry base (.put a), answer⟩] ∧ Unstored s a base given look := by
  obtain ⟨hgives, hvalid, hregisters⟩ := h
  cases hregisters with
  | unasked => exact .inl (by simpa using hgives.looks)
  | unknown hbase e => exact .inl (by simpa using ⟨hgives.looks, trivial⟩)
  | same hbase => exact .inl (by simpa using ⟨hgives.looks, trivial⟩)
  | stored hbase hother answer =>
    exact .inr ⟨_, _, _, answer, rfl, hgives, hvalid, hbase, _, hother, rfl⟩

/-! ### Calls -/

theorem path_failingAs_iff {e : ε → Error} {p : RunExcept ε α} {r : Except Error α} :
    Program.Path (failingAs e p).run trace r ↔
      ∃ x, Program.Path p.run trace x ∧ r = x.mapError e :=
  Program.path_bindDone_iff

theorem path_ask_iff {base : String} {call : Registry.Call} {r : Except Error call.Result} :
    Program.Path (ask base call).run trace r ↔
      ∃ answer, trace = [⟨.registry base call, answer⟩] ∧ r = answer.mapError .registry := by
  rw [ask, path_failingAs_iff]
  constructor
  · rintro ⟨answer, h, rfl⟩
    exact ⟨answer, Program.path_take_iff.mp h, rfl⟩
  · rintro ⟨answer, rfl, rfl⟩
    exact ⟨answer, Program.path_take_iff.mpr rfl, rfl⟩

/-! ### The specification -/

theorem path_requireValid {r : Except Error Unit}
    (h : Program.Path (requireValid a).run trace r) :
    trace = [] ∧ (a.validate = .ok () ∧ r = .ok () ∨ ∃ e, r = .error e) := by
  unfold requireValid at h
  cases hvalid : a.validate with
  | ok u =>
    rw [hvalid] at h
    obtain ⟨rfl, rfl⟩ := Program.path_done_iff.mp h
    exact ⟨rfl, .inl ⟨rfl, rfl⟩⟩
  | error vs =>
    rw [hvalid] at h
    obtain ⟨rfl, rfl⟩ := Program.path_done_iff.mp h
    exact ⟨rfl, .inr ⟨_, rfl⟩⟩

theorem path_register {base : String} {r : Except Error Unit} (hbase : s.RegistersAt base)
    (h : Program.Path (register base a).run trace r) : Registers s a trace := by
  rcases Program.path_bindExcept_iff.mp h with
    ⟨e, -, hget⟩ | ⟨get, existing, rest, rfl, hget, hrest⟩
  · obtain ⟨answer, rfl, he⟩ := path_ask_iff.mp hget
    cases answer with
    | error e => exact .unknown hbase e
    | ok existing => exact absurd he nofun
  · obtain ⟨answer, rfl, he⟩ := path_ask_iff.mp hget
    cases answer with
    | error e => exact absurd he nofun
    | ok found =>
      obtain rfl : existing = found := Except.ok.inj he
      by_cases hsame : existing = some a
      · rw [if_pos hsame] at hrest
        obtain ⟨rfl, -⟩ := Program.path_done_iff.mp hrest
        subst hsame
        exact .same hbase
      · rw [if_neg hsame] at hrest
        -- the storing is the last thing, whether it succeeds or not
        have hput : ∃ answer, rest = [⟨.registry base (.put a), answer⟩] := by
          rcases Program.path_bindExcept_iff.mp hrest with
            ⟨e, -, hput⟩ | ⟨put, stored, none, rfl, hput, hnone⟩
          · obtain ⟨answer, rfl, -⟩ := path_ask_iff.mp hput
            exact ⟨answer, rfl⟩
          · obtain ⟨answer, rfl, -⟩ := path_ask_iff.mp hput
            obtain ⟨rfl, -⟩ := Program.path_done_iff.mp hnone
            exact ⟨answer, rfl⟩
        obtain ⟨answer, rfl⟩ := hput
        exact .stored hbase hsame answer

theorem path_registerIfAsked {path : String} {r : Except Error Unit} (hs : s.source = .file path)
    (h : Program.Path (registerIfAsked s a).run trace r) : Registers s a trace := by
  unfold registerIfAsked at h
  cases hurl : s.registryUrl with
  | none =>
    rw [hurl] at h
    obtain ⟨rfl, -⟩ := Program.path_done_iff.mp h
    exact .unasked fun base hbase => nomatch hurl.symm.trans hbase.url
  | some base =>
    rw [hurl] at h
    cases hdelete : s.delete with
    | true =>
      rw [hdelete] at h
      obtain ⟨rfl, -⟩ := Program.path_done_iff.mp h
      exact .unasked fun base hbase => nomatch hdelete.symm.trans hbase.keeps
    | false =>
      rw [hdelete] at h
      exact path_register ⟨⟨path, hs⟩, hurl, hdelete⟩ h

theorem path_load {path : String} {r : Except Error Application}
    (h : Program.Path (failingAs (.load path) (Application.load path)).run trace r) :
    ∃ answer, trace = [⟨.loadFile path, answer⟩] ∧
      ((∃ e, r = .error e) ∨ ∃ content a, answer = .ok content ∧ r = .ok a ∧
        Application.ofContent path content = .ok a) := by
  obtain ⟨x, hx, rfl⟩ := path_failingAs_iff.mp h
  obtain ⟨answer, hanswer, rfl⟩ := Program.path_bindDone_iff.mp hx
  refine ⟨answer, Program.path_take_iff.mp hanswer, ?_⟩
  cases answer with
  | error e => exact .inl ⟨_, rfl⟩
  | ok content =>
    cases hread : Application.ofContent path content with
    | error e => exact .inl ⟨.load path e, congrArg (Except.mapError _) hread⟩
    | ok a => exact .inr ⟨content, a, rfl, congrArg (Except.mapError _) hread, hread⟩

theorem Obtains.look {v : Event} {e : Error} (h : v.1.Looks) : Obtains s [v] (.error e) :=
  .nothing (fun _ hv => List.mem_singleton.mp hv ▸ h) (Nat.le_refl 1)

theorem path_obtainFile {path : String} {r : Except Error Application}
    (hs : s.source = .file path) (h : Program.Path (obtainFile s path).run trace r) :
    Obtains s trace r := by
  rcases Program.path_bindExcept_iff.mp h with
    ⟨e, rfl, hload⟩ | ⟨loaded, a, rest, rfl, hload, hrest⟩
  · obtain ⟨answer, rfl, -⟩ := path_load hload
    exact .look trivial
  obtain ⟨answer, rfl, ⟨e, he⟩ | ⟨content, b, rfl, hb, hread⟩⟩ := path_load hload
  · exact absurd he nofun
  obtain rfl := Except.ok.inj hb
  -- the check takes no action, and what follows it are the calls that register
  rcases Program.path_bindExcept_iff.mp hrest with
    ⟨e, rfl, hvalid⟩ | ⟨checks, _, calls, rfl, hvalid, hcalls⟩
  · obtain ⟨rfl, -⟩ := path_requireValid hvalid
    exact .look trivial
  obtain ⟨rfl, ⟨hvalid, -⟩ | ⟨e, he⟩⟩ := path_requireValid hvalid
  · rcases Program.path_bindExcept_iff.mp hcalls with
      ⟨e, rfl, hregister⟩ | ⟨calls, _, last, rfl, hregister, hlast⟩
    · exact .unregistered (.intro (.file hs hread) hvalid (path_registerIfAsked hs hregister))
    · obtain ⟨rfl, rfl⟩ := Program.path_done_iff.mp hlast
      rw [List.append_nil]
      exact .obtained (.intro (.file hs hread) hvalid (path_registerIfAsked hs hregister))
  · exact absurd he nofun

/-- A specification is read from a file and stored, when the registry has another one or none. -/
theorem path_obtainFile_stores {path base : String} {content : Bytes}
    {existing : Option Application} (hread : Application.ofContent path content = .ok a)
    (hvalid : a.validate = .ok ()) (hurl : s.registryUrl = some base) (hkeeps : s.delete = false)
    (hother : existing ≠ some a) (stored : Application) :
    Program.Path (obtainFile s path).run
      [⟨.loadFile path, .ok content⟩, ⟨.registry base (.get a.name), .ok existing⟩,
        ⟨.registry base (.put a), .ok stored⟩] (.ok a) := by
  have hload : Program.Path (failingAs (.load path) (Application.load path)).run
      [⟨.loadFile path, .ok content⟩] (.ok a) := by
    refine path_failingAs_iff.mpr ⟨.ok a, Program.path_bindDone_iff.mpr ?_, rfl⟩
    exact ⟨.ok content, Program.path_take_iff.mpr rfl, hread.symm⟩
  have hcheck : Program.Path (requireValid a).run [] (.ok ()) := by
    rw [requireValid, hvalid]
    exact .done _
  have hput : Program.Path (registerIfAsked s a).run
      [⟨.registry base (.get a.name), .ok existing⟩, ⟨.registry base (.put a), .ok stored⟩]
      (.ok ()) := by
    rw [registerIfAsked, hurl, hkeeps]
    refine Program.path_bindExcept_iff.mpr (.inr ⟨[_], existing, [_], rfl, ?_, ?_⟩)
    · exact path_ask_iff.mpr ⟨.ok existing, rfl, rfl⟩
    · rw [if_neg hother]
      refine Program.path_bindExcept_iff.mpr (.inr ⟨[_], stored, [], rfl, ?_, .done _⟩)
      exact path_ask_iff.mpr ⟨.ok stored, rfl, rfl⟩
  refine Program.path_bindExcept_iff.mpr (.inr ⟨[_], a, [_, _], rfl, hload, ?_⟩)
  refine Program.path_bindExcept_iff.mpr (.inr ⟨[], (), [_, _], rfl, hcheck, ?_⟩)
  exact Program.path_bindExcept_iff.mpr (.inr ⟨[_, _], (), [], rfl, hput, .done _⟩)

/-- What a run makes of the answer of a registry. -/
def fetched (name : String) : Except Registry.ClientError (Option Application) →
    Except Error Application
  | .error e => .error (.registry e)
  | .ok none => .error (.notRegistered name)
  | .ok (some a) =>
    match a.validate with
    | .ok () => .ok a
    | .error vs => .error (.invalid vs)

theorem run_obtainRegistered {base : String} (hurl : s.registryUrl = some base) (name : String) :
    (obtainRegistered s name).run = .act (.registry base (.get name)) fun answer =>
      .done (fetched name answer) := by
  rw [obtainRegistered, requireRegistry, hurl]
  refine congrArg (Program.act (Action.registry base (.get name))) (funext fun answer => ?_)
  match answer with
  | .error e => rfl
  | .ok none => rfl
  | .ok (some a) =>
    show (requireValid a >>= fun _ => pure a : Step Application).run = _
    rw [requireValid, fetched]
    cases a.validate <;> rfl

theorem path_obtainRegistered {name : String} {r : Except Error Application}
    (hs : s.source = .registry name) (h : Program.Path (obtainRegistered s name).run trace r) :
    Obtains s trace r := by
  cases hurl : s.registryUrl with
  | none =>
    rw [obtainRegistered, requireRegistry, hurl] at h
    obtain ⟨rfl, rfl⟩ := Program.path_done_iff.mp h
    exact .nothing (by simp) (by simp)
  | some base =>
    rw [run_obtainRegistered hurl] at h
    obtain ⟨answer, rest, rfl, hrest⟩ := Program.path_act_iff.mp h
    obtain ⟨rfl, rfl⟩ := Program.path_done_iff.mp hrest
    match answer with
    | .error e => exact .look trivial
    | .ok none => exact .look trivial
    | .ok (some a) =>
      rw [fetched]
      cases hvalid : a.validate with
      | error vs => exact .look trivial
      | ok u =>
        -- what comes from the registry is not registered there
        refine .obtained (.intro (.registry hs hurl) hvalid (.unasked fun base hbase => ?_))
        obtain ⟨path, hpath⟩ := hbase.file
        exact nomatch hs.symm.trans hpath

/-! ### The target -/

theorem only_failingAs {P : Action → Prop} {e : ε → Error} {p : RunExcept ε α}
    (h : p.run.Only P) : (failingAs e p).run.Only P :=
  h.bind fun _ => trivial

theorem only_findTarget (s : Settings) :
    (findTarget s).run.Only fun x => ∃ path, x = .loadFile path := by
  unfold findTarget
  cases s.executor with
  | kubernetes =>
    refine .bindExcept ?_ fun c => trivial
    unfold findCluster
    cases s.kubeconfig with
    | none => trivial
    | some path =>
      refine .bindExcept (only_failingAs ?_) fun c => ?_
      · exact (Program.Only.take ⟨path, rfl⟩).bind fun _ => trivial
      · cases c.check <;> trivial
  | aci => trivial
  | docker => trivial

theorem backend_of_path_findTarget {t : Target} {ns : String}
    (h : Program.Path (findTarget s).run trace (.ok (t, ns))) : t.backend = s.executor := by
  unfold findTarget at h
  cases hexecutor : s.executor with
  | kubernetes =>
    rw [hexecutor] at h
    rcases Program.path_bindExcept_iff.mp h with ⟨e, he, -⟩ | ⟨found, c, last, rfl, -, hlast⟩
    · exact absurd he nofun
    · obtain ⟨-, ht⟩ := Program.path_done_iff.mp hlast
      obtain ⟨rfl, -⟩ := Prod.mk.inj (Except.ok.inj ht)
      rfl
  | aci =>
    rw [hexecutor] at h
    obtain ⟨rfl, -⟩ := Prod.mk.inj (Except.ok.inj (Program.path_done_iff.mp h).2)
    rfl
  | docker =>
    rw [hexecutor] at h
    obtain ⟨rfl, -⟩ := Prod.mk.inj (Except.ok.inj (Program.path_done_iff.mp h).2)
    rfl

/-! ### Deploying and attaching -/

/-- What is done to carry a plan out, or to write it down: something is kept and told of, and unless
it is a dry run there is work on the backend. -/
theorem only_carryOut {P : Action → Prop} (hkeeps : ∀ x : Action, x.Keeps → P x)
    (htell : ∀ text, P (.tell text)) (hworks : s.dryRun = false → ∀ x : Action, x.Works → P x)
    (p : Plan) (a : Application) : (carryOut s p a).run.Only P := by
  have htold (text : String) : (tellSuccess s.color text).run.Only P :=
    Program.Only.bind (.take (htell _)) fun _ => trivial
  unfold carryOut
  cases s.dump with
  | some dir =>
    exact .bindExcept (only_failingAs ((Plan.only_dump p dir).imp hkeeps)) fun _ => htold _
  | none =>
    cases hdry : s.dryRun with
    | true =>
      exact .bindExcept (only_failingAs ((Plan.only_execute_dry p).imp hkeeps)) fun _ => trivial
    | false =>
      have hexecute := (Plan.only_execute p false).imp (hworks hdry)
      exact .bindExcept (only_failingAs hexecute) fun _ => htold _

/-- A plan that is carried out, and not in a dry run, is applied and then told of. -/
theorem applied_of_path_carryOut {p : Plan} (hreal : s.dryRun = false) (hdump : s.dump = none)
    (h : Program.Path (carryOut s p a).run trace (.ok ())) :
    ∃ applied text, trace = applied ++ [⟨.tell text, ()⟩] ∧ p.Applied applied := by
  rw [carryOut, hdump, hreal] at h
  rcases Program.path_bindExcept_iff.mp h with
    ⟨e, he, -⟩ | ⟨applied, _, told, rfl, hexecute, htold⟩
  · exact absurd he nofun
  obtain ⟨x, hx, hok⟩ := path_failingAs_iff.mp hexecute
  obtain ⟨_, htell, -⟩ := Program.path_bindDone_iff.mp htold
  obtain rfl := Program.path_take_iff.mp htell
  cases x with
  | error e => exact absurd hok nofun
  | ok _ => exact ⟨applied, _, rfl, Plan.applied_of_path hx⟩

theorem path_unregister {r : Except Error Unit} (h : Program.Path (unregister s).run trace r) :
    Unregisters s trace := by
  unfold unregister at h
  by_cases hasked : (s.delete && !s.dryRun && s.dump.isNone) = true
  · rw [if_pos hasked] at h
    simp only [Bool.and_eq_true, Bool.not_eq_true', Option.isNone_iff_eq_none] at hasked
    obtain ⟨⟨hdelete, hreal⟩, hdump⟩ := hasked
    split at h
    · rename_i base name hurl hsource
      obtain ⟨answer, rfl, -⟩ := path_ask_iff.mp h
      exact .removed ⟨hsource, hurl, hdelete, hreal, hdump⟩ answer
    · rename_i hnone
      obtain ⟨rfl, -⟩ := Program.path_done_iff.mp h
      exact .kept fun base name hat => hnone base name hat.url hat.source
  · rw [if_neg hasked] at h
    obtain ⟨rfl, -⟩ := Program.path_done_iff.mp h
    exact .kept fun base name hat => hasked (by simp [hat.delete, hat.real, hat.noDump])

theorem only_attach (t : Target) (ns : String) (filters : List Pattern) (a : Application) :
    (Plan.attach t ns filters a).run.Only Action.Attaches := by
  refine .bindExcept ?_ fun first => ?_
  · show (Program.done (Plan.firstService a)).Only _
    trivial
  · cases t with
    | docker =>
      refine .bindExcept (Plan.only_orFail (.take ⟨_, rfl⟩)) fun code => ?_
      show (Program.done (Plan.logsResult "docker" code)).Only _
      trivial
    | aci group =>
      refine .bindExcept ?_ fun e => trivial
      exact Program.Only.bind (.take ⟨_, _, rfl⟩) fun _ => trivial
    | kubernetes c => exact Plan.only_orFail (.take trivial)

theorem path_deploy {t : Target} {ns : String} {r : Except Error Unit}
    (h : Program.Path (deploy s t ns a).run trace r) :
    (trace = [] ∧ ∃ e, r = .error e) ∨ ∃ p, planFor s t ns a = .ok p ∧
      ((∃ e, r = .error e ∧ Program.Path (carryOut s p a).run trace (.error e)) ∨
        ∃ carried removal, trace = carried ++ removal ∧
          Program.Path (carryOut s p a).run carried (.ok ()) ∧ Unregisters s removal) := by
  unfold deploy at h
  cases hplan : planFor s t ns a with
  | error e =>
    rw [hplan] at h
    obtain ⟨rfl, rfl⟩ := Program.path_done_iff.mp h
    exact .inl ⟨rfl, _, rfl⟩
  | ok p =>
    rw [hplan] at h
    refine .inr ⟨p, rfl, ?_⟩
    rcases Program.path_bindExcept_iff.mp h with
      ⟨e, rfl, hcarry⟩ | ⟨carried, _, removal, rfl, hcarry, hremove⟩
    · exact .inl ⟨e, rfl, hcarry⟩
    · exact .inr ⟨carried, removal, rfl, hcarry, path_unregister hremove⟩

theorem only_attachIfAsked (s : Settings) (t : Target) (ns : String) (a : Application) :
    (if s.attach then failingAs .plan (Plan.attach t ns s.logFilters a)
      else pure () : Step Unit).run.Only Action.Attaches := by
  cases s.attach with
  | true => exact only_failingAs (only_attach t ns s.logFilters a)
  | false => trivial

/-! ### The run -/

theorem path_proceed {r : Except Error Unit} (h : Program.Path (proceed s a).run trace r) :
    Proceeds s a trace r := by
  rcases Program.path_bindExcept_iff.mp h with
    ⟨e, rfl, hfind⟩ | ⟨found, ⟨t, ns⟩, rest, rfl, hfind, hrest⟩
  · exact .stopped ((only_findTarget s).of_path hfind)
  have hfiles : Files found := (only_findTarget s).of_path hfind
  have hbackend := backend_of_path_findTarget hfind
  -- the last part is the same, whether something was deployed or not
  have hlogs {logs : List Event} (h : Program.Path _ logs r) : Logs logs :=
    (only_attachIfAsked s t ns a).of_path h
  cases hdeploy : s.deploy with
  | false =>
    simp only [hdeploy] at hrest
    exact .undeployed hfiles hdeploy (hlogs hrest)
  | true =>
    simp only [hdeploy] at hrest
    rcases Program.path_bindExcept_iff.mp hrest with
      ⟨e, rfl, hdone⟩ | ⟨done, _, logs, rfl, hdone, hattach⟩
    · rcases path_deploy hdone with
        ⟨rfl, -⟩ | ⟨p, hplan, ⟨_, he, hcarry⟩ | ⟨carried, removal, rfl, hcarry, hremoval⟩⟩
      · rw [List.append_nil]
        exact .stopped hfiles
      · exact .failed hfiles hbackend hdeploy hplan (Except.error.inj he ▸ hcarry)
      · -- the last call failed, so that no logs are shown
        have hnone : Logs [] := fun v hv => absurd hv List.not_mem_nil
        have hproceeds : Proceeds s a (found ++ carried ++ removal ++ []) (.error e) :=
          .deployed hfiles hbackend hdeploy hplan hcarry hremoval hnone
        simpa only [List.append_assoc, List.append_nil] using hproceeds
    · rcases path_deploy hdone with
        ⟨-, e, he⟩ | ⟨p, hplan, ⟨e, he, -⟩ | ⟨carried, removal, rfl, hcarry, hremoval⟩⟩
      · exact absurd he nofun
      · exact absurd he nofun
      · have hproceeds : Proceeds s a (found ++ carried ++ removal ++ logs) r :=
          .deployed hfiles hbackend hdeploy hplan hcarry hremoval (hlogs hattach)
        simpa only [List.append_assoc] using hproceeds

theorem path_obtainAndProceed {p : Step Application} {r : Except Error Unit}
    (hp : ∀ {first : List Event} {q : Except Error Application},
      Program.Path p.run first q → Obtains s first q)
    (h : Program.Path (p >>= proceed s : Step Unit).run trace r) : Course s trace r := by
  rcases Program.path_bindExcept_iff.mp h with
    ⟨e, rfl, hfirst⟩ | ⟨first, a, rest, rfl, hfirst, hrest⟩
  · cases hp hfirst with
    | nothing hlooks hshort => exact .nothing hlooks hshort
    | unregistered hprepares => exact .unregistered hprepares
  · cases hp hfirst with
    | obtained hprepares => exact .proceeded hprepares (path_proceed hrest)

theorem only_listAll (s : Settings) :
    (listAll s).run.Only fun x => x.Looks ∨ ∃ content, x = .print content := by
  have hprint (line : String) :
      (printLine line).run.Only fun x => x.Looks ∨ ∃ content, x = .print content := by
    refine .bindExcept ?_ fun _ => trivial
    exact Program.Only.bind (.take (.inr ⟨_, rfl⟩)) fun _ => trivial
  unfold listAll requireRegistry
  refine .bindExcept (by cases s.registryUrl <;> trivial) fun base => ?_
  refine .bindExcept (only_failingAs (.take (.inl trivial))) fun all => ?_
  cases all.isEmpty with
  | true => exact hprint _
  | false =>
    show (all.forM fun a => printLine (listingLine s.color a)).run.Only _
    induction all with
    | nil => trivial
    | cons a all ih => exact .bindExcept (hprint _) fun _ => ih

/-- **Every run takes one of the courses.** -/
theorem course_of_path {r : Except Error Unit} (h : Program.Path (run s).run trace r) :
    Course s trace r := by
  unfold run at h
  cases hs : s.source with
  | list =>
    rw [hs] at h
    exact .listing hs ((only_listAll s).of_path h)
  | file path =>
    rw [hs] at h
    exact path_obtainAndProceed (path_obtainFile hs) h
  | registry name =>
    rw [hs] at h
    exact path_obtainAndProceed (path_obtainRegistered hs) h

end Pipeline

end Rollout
