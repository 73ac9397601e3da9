/-
A specification that cannot be planned stops the run before anything is touched.

Whether a specification can be planned is known once it is there and the target is found, and until
then nothing is touched but the registry: a specification from a file is registered before it is
planned.

* `Settings.Refuses` says that the backend does not plan a specification;
* `looks_of_refuses`: a run that comes to such a specification fails, and at most registers it;
* `not_untouched_of_refuses`: it may indeed register it.
-/
import Rollout.Proofs.Pipeline.Course
import Rollout.Proofs.Plan.Refusal
import Rollout.Proofs.Spec.Wire

namespace Rollout

/-- An action that works on something outside: it keeps something, calls the cluster, runs a command
of a plan, or changes what is registered. -/
def Action.Touches (x : Action) : Prop :=
  x.Works ∨ (∃ base a, x = .registry base (.put a)) ∨ ∃ base name, x = .registry base (.delete name)

namespace Pipeline

open Host (Program)
open Plan (Event)
open Spec (Application)

variable {s : Settings} {a b : Application} {v : Event} {trace later : List Event}
  {r : Except Error Unit}

/-- The backend does not plan the specification as the settings ask for. -/
def Settings.Refuses (s : Settings) (a : Application) : Prop :=
  ∃ t ns e, t.backend = s.executor ∧ planFor s t ns a = .error e

/-- What is refused for one target is refused for every target, in every namespace. -/
theorem Settings.Refuses.not_planned {t : Target} {ns : String} {p : Plan} (h : s.Refuses a)
    (ht : t.backend = s.executor) : planFor s t ns a ≠ .ok p := by
  intro hp
  -- whether it can be planned is a matter of the backend and the mode alone
  obtain ⟨u, ns', e, hu, herror⟩ := h
  have hplannable := Plan.compile_succeeds_iff.mp ⟨p, hp⟩
  rw [ht, ← hu] at hplannable
  obtain ⟨q, hq⟩ := Plan.compile_succeeds_iff.mpr hplannable
  exact absurd (herror.symm.trans hq) nofun

theorem Proceeds.stopped_of_refuses (h : Proceeds s a later r) (hdeploy : s.deploy = true)
    (hrefuses : s.Refuses a) : (∃ e, r = .error e) ∧ ∀ v ∈ later, v.1.Looks := by
  cases h with
  | stopped hfiles => exact ⟨⟨_, rfl⟩, hfiles.looks⟩
  | failed _ ht _ hplan => exact absurd hplan (hrefuses.not_planned ht)
  | deployed _ ht _ hplan => exact absurd hplan (hrefuses.not_planned ht)
  | undeployed _ hnot => exact nomatch hdeploy.symm.trans hnot

/-- The specification of the first event is the one that is prepared. -/
theorem Prepares.looks_or_registers {first : List Event} (h : Prepares s b first)
    (htrace : first ++ later = v :: trace) (hgives : Gives s v a) :
    b = a ∧ ∀ u ∈ first,
      u.1.Looks ∨ ∃ base, s.RegistersAt base ∧ u.1 = .registry base (.put a) := by
  have hsame : b = a := by
    obtain ⟨hgiven⟩ := h
    obtain ⟨rfl, -⟩ := List.cons_eq_cons.mp htrace
    exact hgiven.unique hgives
  refine ⟨hsame, fun u hu => ?_⟩
  rcases h.looks_or_stores with hlooks | ⟨base, given, look, answer, rfl, hunstored⟩
  · exact .inl (hlooks u hu)
  obtain ⟨existing, -, rfl⟩ := hunstored.other
  simp only [List.mem_cons, List.not_mem_nil, or_false] at hu
  rcases hu with rfl | rfl | rfl
  · exact .inl hunstored.gives.looks
  · exact .inl trivial
  · exact .inr ⟨base, hunstored.registers, by rw [hsame]⟩

/-- **A specification that the backend refuses is not acted on.**  Whatever is answered, a run that
is to deploy it fails, and it only looks things up, but for one thing: when the specification comes
from a file, is not to be taken down and there is a registry, it may be stored there. -/
theorem looks_of_refuses (hdeploy : s.deploy = true) (hrefuses : s.Refuses a)
    (hgives : Gives s v a) (h : Program.Path (run s).run (v :: trace) r) :
    (∃ e, r = .error e) ∧
      ∀ u ∈ v :: trace, u.1.Looks ∨ ∃ base, s.RegistersAt base ∧ u.1 = .registry base (.put a) := by
  generalize htrace : v :: trace = whole at h
  cases course_of_path h with
  | listing hs _ =>
    cases hgives with
    | file hfile => exact nomatch hs.symm.trans hfile
    | registry hregistry => exact nomatch hs.symm.trans hregistry
  | nothing hlooks _ => exact ⟨⟨_, rfl⟩, fun u hu => .inl (hlooks u hu)⟩
  | unregistered hprepares =>
    have hfirst := (hprepares.looks_or_registers ((List.append_nil _).trans htrace.symm) hgives).2
    exact ⟨⟨_, rfl⟩, hfirst⟩
  | proceeded hprepares hproceeds =>
    obtain ⟨rfl, hfirst⟩ := hprepares.looks_or_registers htrace.symm hgives
    obtain ⟨herror, hlater⟩ := hproceeds.stopped_of_refuses hdeploy hrefuses
    exact ⟨herror, List.forall_mem_append.mpr ⟨hfirst, fun u hu => .inl (hlater u hu)⟩⟩

/-- A specification that docker cannot run. -/
def replicated : Application :=
  { name := "store",
    services := [{ name := "web", containers := [{ image := "acme/web:1" }], replicas := 2 }] }

/-- A run for a file, with docker and a registry. -/
def fileWithRegistry : Settings :=
  { source := .file "app.json", executor := .docker,
    registryUrl := some "http://localhost:8080" }

theorem refuses_replicated : fileWithRegistry.Refuses replicated :=
  ⟨.docker, "default", _, rfl, rfl⟩

/-- The registry has nothing under the name, and stores what docker then refuses. -/
theorem path_replicated :
    Program.Path (run fileWithRegistry).run
      [⟨.loadFile "app.json", .ok (Utf8.encode replicated.toJson.compact)⟩,
        ⟨.registry "http://localhost:8080" (.get "store"), .ok none⟩,
        ⟨.registry "http://localhost:8080" (.put replicated), .ok replicated⟩]
      (.error (.plan (.unsupported .docker "web" .replicationOrSharding))) := by
  have hread := Application.ofContent_compact Spec.isYamlPath_appJson replicated
  have hother : none ≠ some replicated := nofun
  have hvalid : replicated.validate = .ok () := by decide
  have hstores := path_obtainFile_stores (s := fileWithRegistry) hread hvalid rfl rfl hother
    replicated
  exact Program.path_bindExcept_iff.mpr
    (.inr ⟨_, replicated, [], (List.append_nil _).symm, hstores, .done _⟩)

theorem gives_replicated :
    Gives fileWithRegistry ⟨.loadFile "app.json", .ok (Utf8.encode replicated.toJson.compact)⟩
      replicated :=
  .file rfl (Application.ofContent_compact Spec.isYamlPath_appJson replicated)

theorem looks_of_refuses_replicated :
    ∃ v trace r, fileWithRegistry.deploy = true ∧ fileWithRegistry.Refuses replicated ∧
      Gives fileWithRegistry v replicated ∧
      Program.Path (run fileWithRegistry).run (v :: trace) r ∧ (∃ e, r = .error e) ∧
      ∀ u ∈ v :: trace, u.1.Looks ∨
        ∃ base, fileWithRegistry.RegistersAt base ∧ u.1 = .registry base (.put replicated) := by
  obtain ⟨herror, hlooks⟩ :=
    looks_of_refuses rfl refuses_replicated gives_replicated path_replicated
  exact ⟨_, _, _, rfl, refuses_replicated, gives_replicated, path_replicated, herror, hlooks⟩

/-- A run may touch the registry before it comes to know that the backend refuses. -/
theorem not_untouched_of_refuses :
    ¬ ∀ (s : Settings) (a : Application) (v : Event) (trace : List Event)
        (r : Except Error Unit),
      s.deploy = true → s.Refuses a → Gives s v a → Program.Path (run s).run (v :: trace) r →
        (∃ e, r = .error e) ∧ ∀ u ∈ v :: trace, ¬ u.1.Touches := by
  intro h
  obtain ⟨-, huntouched⟩ := h fileWithRegistry replicated _ _ _ rfl refuses_replicated
    gives_replicated path_replicated
  exact huntouched ⟨.registry "http://localhost:8080" (.put replicated), .ok replicated⟩
    (by simp) (.inr (.inl ⟨_, _, rfl⟩))

end Pipeline

end Rollout
