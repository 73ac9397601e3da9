/-
What a dry run changes.

A dry run plans and shows what it would do, and for that it looks things up and keeps artifacts; it
calls no cluster, runs no command of a plan and takes nothing out of the registry.  But it does
store the specification of a file in the registry, as a real run does.

* `Action.Changes` says which actions change something;
* `Proceeds.unchanging_of_dryRun`: once the specification is there, a dry run changes nothing;
* `changes_of_dryRun`: it stores the specification exactly when the registry has another one, or
  none, and changes nothing else.
-/
import Rollout.Proofs.Pipeline.Course
import Rollout.Proofs.Spec.Wire

namespace Rollout

open Host (CommandLine)

/-- A command line starts, makes or removes a container. -/
def ChangesContainers (argv : CommandLine) : Prop :=
  ["docker", "run"] <+: argv ∨ ["docker", "rm"] <+: argv ∨
    ["az", "container", "create"] <+: argv ∨ ["az", "container", "delete"] <+: argv

namespace Action

/-- An action that changes what runs or what is registered. -/
def Changes : Action → Prop
  | registry _ (.put _) | registry _ (.delete _) | cluster .. => True
  | command argv | stream argv | streamForever argv _ => ChangesContainers argv
  | _ => False

variable {x : Action}

theorem Looks.not_changes (h : x.Looks) : ¬ x.Changes := by
  cases x with
  | registry base call => cases call <;> first | exact id | exact h.elim
  | loadFile => exact id
  | _ => exact h.elim

theorem Keeps.not_changes (h : x.Keeps) : ¬ x.Changes := by
  cases x <;> first | exact id | exact h.elim

theorem Attaches.not_changes (h : x.Attaches) : ¬ x.Changes := by
  cases x with
  | stream argv =>
    obtain ⟨service, rfl⟩ := h
    simp [Changes, ChangesContainers, Plan.Docker.logsLine, List.cons_prefix_cons]
  | streamForever argv pause =>
    obtain ⟨group, service, rfl⟩ := h
    simp [Changes, ChangesContainers, Plan.Aci.logsLine, List.cons_prefix_cons]
  | follow => exact id
  | _ => exact h.elim

end Action

namespace Pipeline

open Host (Program)
open Plan (Event)
open Spec (Application)

variable {s : Settings} {a b : Application} {trace later : List Event} {r : Except Error Unit}

theorem only_carryOut_dry (hdry : s.dryRun = true) (p : Plan) (a : Application) :
    (carryOut s p a).run.Only fun x => ¬ x.Changes :=
  only_carryOut (fun _ => Action.Keeps.not_changes) (fun _ => id)
    (fun hreal => nomatch hdry.symm.trans hreal) p a

theorem Unregisters.eq_nil_of_dryRun (h : Unregisters s later) (hdry : s.dryRun = true) :
    later = [] := by
  cases h with
  | kept => rfl
  | removed hat => exact nomatch hdry.symm.trans hat.real

theorem Files.not_changes (h : Files later) : ∀ v ∈ later, ¬ v.1.Changes :=
  fun v hv => (h.looks v hv).not_changes

theorem Logs.not_changes (h : Logs later) : ∀ v ∈ later, ¬ v.1.Changes :=
  fun v hv => (h v hv).not_changes

/-- Once its specification is there, a dry run changes nothing. -/
theorem Proceeds.unchanging_of_dryRun (h : Proceeds s a later r) (hdry : s.dryRun = true) :
    ∀ v ∈ later, ¬ v.1.Changes := by
  cases h with
  | stopped hfiles => exact hfiles.not_changes
  | failed hfiles _ _ _ hcarries =>
    have hcarried := (only_carryOut_dry hdry _ _).of_path hcarries
    exact List.forall_mem_append.mpr ⟨hfiles.not_changes, hcarried⟩
  | deployed hfiles _ _ _ hcarries hunregisters hlogs =>
    have hcarried := (only_carryOut_dry hdry _ _).of_path hcarries
    obtain rfl := hunregisters.eq_nil_of_dryRun hdry
    rw [List.append_nil]
    exact List.forall_mem_append.mpr
      ⟨List.forall_mem_append.mpr ⟨hfiles.not_changes, hcarried⟩, hlogs.not_changes⟩
  | undeployed hfiles _ hlogs =>
    exact List.forall_mem_append.mpr ⟨hfiles.not_changes, hlogs.not_changes⟩

/-- A run that changes nothing but what it stores changes something at that one place. -/
theorem Prepares.change_at {first before after : List Event} {v : Event} (h : Prepares s a first)
    (hlater : ∀ u ∈ later, ¬ u.1.Changes) (htrace : first ++ later = before ++ v :: after)
    (hv : v.1.Changes) :
    ∃ base given look, before = [given, look] ∧ Unstored s a base given look ∧
      v.1 = .registry base (.put a) := by
  have hmem : v ∈ first ++ later := htrace ▸ List.mem_append_cons_self
  have hfirst : v ∈ first := by
    rcases List.mem_append.mp hmem with hfirst | hrest
    · exact hfirst
    · exact absurd hv (hlater v hrest)
  rcases h.looks_or_stores with hlooks | ⟨base, given, look, answer, rfl, hunstored⟩
  · exact absurd hv (hlooks v hfirst).not_changes
  obtain ⟨existing, -, hlook⟩ := hunstored.other
  have hlook : ¬ look.1.Changes := by
    rw [hlook]
    exact id
  -- neither of the first two events changes anything, and no event after the third does
  have hgiven : given :: look :: ⟨.registry base (.put a), answer⟩ :: later
      = before ++ v :: after := htrace
  rcases List.cons_eq_append_iff.mp hgiven with ⟨-, hhead⟩ | ⟨before, rfl, hlooked⟩
  · obtain ⟨rfl, -⟩ := List.cons_eq_cons.mp hhead
    exact absurd hv hunstored.gives.looks.not_changes
  rcases List.cons_eq_append_iff.mp hlooked with ⟨-, hhead⟩ | ⟨before, rfl, hstored⟩
  · obtain ⟨rfl, -⟩ := List.cons_eq_cons.mp hhead
    exact absurd hv hlook
  rcases List.cons_eq_append_iff.mp hstored with ⟨rfl, hhead⟩ | ⟨before, rfl, hrest⟩
  · obtain ⟨rfl, -⟩ := List.cons_eq_cons.mp hhead
    exact ⟨base, given, look, rfl, hunstored, rfl⟩
  · exact absurd hv (hlater v (hrest ▸ List.mem_append_cons_self))

/-- What is stored, when the registry has been looked at, is stored next. -/
theorem Prepares.stores {first rest : List Event} {base : String} {given look : Event}
    (h : Prepares s b first) (hunstored : Unstored s a base given look)
    (htrace : first ++ later = given :: look :: rest) :
    ∃ answer after, rest = ⟨.registry base (.put a), answer⟩ :: after := by
  obtain ⟨existing, hother, hlook⟩ := hunstored.other
  obtain ⟨hgives, -, hregisters⟩ := h
  obtain ⟨rfl, hcalls⟩ := List.cons_eq_cons.mp htrace
  obtain rfl := hgives.unique hunstored.gives
  have hbase {other : String} (h : s.RegistersAt other) : other = base :=
    Option.some.inj (h.url.symm.trans hunstored.registers.url)
  -- of the ways to register only the one that stores agrees with what was found
  cases hregisters with
  | unasked hnone => exact absurd hunstored.registers (hnone base)
  | unknown h e =>
    obtain ⟨hcall, -⟩ := List.cons_eq_cons.mp hcalls
    obtain rfl := hbase h
    exact absurd (hcall.trans hlook) (by simp)
  | same h =>
    obtain ⟨hcall, -⟩ := List.cons_eq_cons.mp hcalls
    obtain rfl := hbase h
    have hsame : some b = existing := by simpa using hcall.trans hlook
    exact absurd hsame.symm hother
  | stored h hdiffers answer =>
    obtain ⟨-, hstore⟩ := List.cons_eq_cons.mp hcalls
    obtain rfl := hbase h
    exact ⟨answer, later, hstore.symm⟩

/-- **A dry run changes nothing but the registered specification.**  Whatever is answered, the only
change that a dry run may make is to store the specification of a file in the registry, right after
the registry was found to have another one under its name, or none; and it does so whenever it was
found so. -/
theorem changes_of_dryRun (hdry : s.dryRun = true) (h : Program.Path (run s).run trace r) :
    (∀ before v after, trace = before ++ v :: after → v.1.Changes →
      ∃ a base given look, before = [given, look] ∧ Unstored s a base given look ∧
        v.1 = .registry base (.put a)) ∧
    ∀ a base given look rest, trace = given :: look :: rest → Unstored s a base given look →
      ∃ answer after, rest = ⟨.registry base (.put a), answer⟩ :: after := by
  have hnone : ∀ v ∈ ([] : List Event), ¬ v.1.Changes := fun v hv => absurd hv List.not_mem_nil
  cases course_of_path h with
  | listing hs hlists =>
    refine ⟨fun before v after htrace hv => ?_, fun a base given look rest _ hunstored => ?_⟩
    · rcases hlists v (htrace ▸ List.mem_append_cons_self) with hlooks | ⟨content, hprint⟩
      · exact absurd hv hlooks.not_changes
      · rw [hprint] at hv
        exact hv.elim
    · obtain ⟨path, hpath⟩ := hunstored.registers.file
      exact nomatch hs.symm.trans hpath
  | nothing hlooks hshort =>
    refine ⟨fun before v after htrace hv => ?_, fun a base given look rest htrace _ => ?_⟩
    · exact absurd hv (hlooks v (htrace ▸ List.mem_append_cons_self)).not_changes
    · subst htrace
      exact absurd hshort (by simp)
  | unregistered hprepares =>
    refine ⟨fun before v after htrace hv => ?_, fun a base given look rest htrace hunstored => ?_⟩
    · exact ⟨_, hprepares.change_at hnone ((List.append_nil _).trans htrace) hv⟩
    · exact hprepares.stores hunstored ((List.append_nil _).trans htrace)
  | proceeded hprepares hproceeds =>
    refine ⟨fun before v after htrace hv => ?_, fun a base given look rest htrace hunstored => ?_⟩
    · exact ⟨_, hprepares.change_at (hproceeds.unchanging_of_dryRun hdry) htrace hv⟩
    · exact hprepares.stores hunstored htrace

/-- A dry run for a file, with a registry at hand. -/
def rehearsal : Settings :=
  { source := .file "app.json", executor := .docker, dryRun := true,
    registryUrl := some "http://localhost:8080" }

def storefront : Application :=
  { name := "store",
    services := [
      { name := "web", containers := [{ image := "acme/web:1" }], ports := [{ number := 80 }] }] }

/-- The registry has nothing under the name, so that the dry run stores the specification. -/
theorem changes_of_dryRun_rehearsal :
    ∃ given look rest, Program.Path (run rehearsal).run (given :: look :: rest) (.ok ()) ∧
      Unstored rehearsal storefront "http://localhost:8080" given look ∧
      ∃ answer after,
        rest = ⟨.registry "http://localhost:8080" (.put storefront), answer⟩ :: after := by
  have hread := Application.ofContent_compact Spec.isYamlPath_appJson storefront
  have hvalid : storefront.validate = .ok () := by decide
  have hother : none ≠ some storefront := nofun
  have hstores := path_obtainFile_stores (s := rehearsal) hread hvalid rfl rfl hother storefront
  have hproceeds : Program.Path (proceed rehearsal storefront).run
      [⟨.print (Utf8.encode
        "Would execute: docker run --name web -d -p 80:80 acme/web:1\n"), .ok ()⟩] (.ok ()) :=
    .act _ _ (.done _)
  have hrun : Program.Path (run rehearsal).run _ (.ok ()) :=
    Program.path_bindExcept_iff.mpr (.inr ⟨_, storefront, _, rfl, hstores, hproceeds⟩)
  have hunstored : Unstored rehearsal storefront "http://localhost:8080" _ _ :=
    ⟨.file rfl hread, hvalid, ⟨⟨_, rfl⟩, rfl, rfl⟩, none, hother, rfl⟩
  exact ⟨_, _, _, hrun, hunstored, (changes_of_dryRun rfl hrun).2 _ _ _ _ _ rfl hunstored⟩

end Pipeline

end Rollout
