/-
What has to go well before something is touched, and before a specification is unregistered.

Nothing but looking things up, and the printing of a listing, happens before a specification was
obtained and found valid.  A specification is taken out of the registry at the end, once its
application was taken down to the last step; so as long as something of it may still run the
registry has the specification.

* `Event.Failed` and `Applied.not_failed`: no step of a plan that was applied has failed;
* `TakenDown` says what is true when a specification is unregistered;
* `validated_and_takenDown`: it is so in every run.
-/
import Rollout.Proofs.Except
import Rollout.Proofs.Pipeline.Course

namespace Rollout

namespace Plan

/-- A step of a plan failed: something could not be kept, or a call or a command did not succeed. -/
def Failed : Event → Prop
  | ⟨.storeFile .., r⟩ => ∃ e, r = .error e
  | ⟨.makeDirs _, r⟩ => ∃ e, r = .error e
  | ⟨.print _, r⟩ => ∃ e, r = .error e
  | ⟨.cluster .., r⟩ => ∃ e, r = .error e
  | ⟨.command _, r⟩ => ∀ output, r = .ok output → output.success = false
  | _ => False

theorem AllRan.not_failed {calls : List Invocation} {trace : List Event} (h : AllRan calls trace) :
    ∀ v ∈ trace, ¬ Failed v := by
  induction h with
  | nil => exact fun v hv => absurd hv List.not_mem_nil
  | cons i output hsuccess _ ih =>
    refine List.forall_mem_cons.mpr ⟨fun hfailed => ?_, List.forall_mem_cons.mpr ⟨?_, ih⟩⟩
    · exact absurd (hfailed output rfl) (by rw [hsuccess]; nofun)
    · exact nofun

theorem not_failed_success (c : Kubernetes.Connection) (a : Artifacts) (x : Effect) :
    ¬ Failed (x.success c a) := by
  cases x with
  | write op => cases a <;> exact nofun
  | call op => exact nofun

/-- No step of a plan that was applied has failed. -/
theorem Applied.not_failed {p : Plan} {trace : List Event} (h : p.Applied trace) :
    ∀ v ∈ trace, ¬ Failed v := by
  obtain ⟨mode, steps⟩ := p
  cases steps with
  | operations c a ops =>
    have htrace : trace = (schedule false ops).map (Effect.success c a) := h
    intro v hv
    rw [htrace] at hv
    obtain ⟨x, -, rfl⟩ := List.mem_map.mp hv
    exact not_failed_success c a x
  | invocations _ calls => exact AllRan.not_failed h

theorem not_failed_of_looks {v : Event} (h : v.1.Looks) : ¬ Failed v := by
  obtain ⟨x, answer⟩ := v
  cases x <;> first | exact id | exact h.elim

theorem not_failed_of_attaches {v : Event} (h : v.1.Attaches) : ¬ Failed v := by
  obtain ⟨x, answer⟩ := v
  cases x <;> first | exact id | exact h.elim

theorem mode_compile {t : Target} {o : Options} {mode : Mode} {a : Spec.Application} {p : Plan}
    (h : compile t o mode a = .ok p) : p.mode = mode := by
  cases t <;> cases mode <;>
    · obtain ⟨_, -, hp⟩ := bind_eq_ok_iff.mp h
      rw [← Except.ok.inj hp]

end Plan

namespace Action

variable {x : Action}

/-- A call that takes a specification out of a registry. -/
def IsRemoval (x : Action) : Prop := ∃ base name, x = .registry base (.delete name)

theorem Looks.not_isRemoval (h : x.Looks) : ¬ x.IsRemoval := by
  rintro ⟨base, name, rfl⟩
  exact h

theorem Works.not_isRemoval (h : x.Works) : ¬ x.IsRemoval := by
  rintro ⟨base, name, rfl⟩
  exact h

theorem Attaches.not_isRemoval (h : x.Attaches) : ¬ x.IsRemoval := by
  rintro ⟨base, name, rfl⟩
  exact h

end Action

namespace Pipeline

open Host (Program)
open Plan (Event Failed)
open Spec (Application)

variable {s : Settings} {a : Application} {trace before first later after : List Event} {v : Event}
  {r : Except Error Unit}

/-! ### Validation -/

/-- Before an event the specification was obtained and found valid. -/
def Validated (s : Settings) (before : List Event) : Prop :=
  ∃ given later a, before = given :: later ∧ Gives s given a ∧ a.validate = .ok ()

theorem Prepares.looks_or_validated (h : Prepares s a first)
    (htrace : first ++ later = before ++ v :: after) : v.1.Looks ∨ Validated s before := by
  obtain ⟨hgives, hvalid, -⟩ := h
  rcases List.cons_eq_append_iff.mp htrace with ⟨-, hhead⟩ | ⟨rest, rfl, -⟩
  · obtain ⟨rfl, -⟩ := List.cons_eq_cons.mp hhead
    exact .inl hgives.looks
  · exact .inr ⟨_, rest, a, rfl, hgives, hvalid⟩

theorem Course.looks_or_validated (h : Course s trace r) (htrace : trace = before ++ v :: after) :
    v.1.Looks ∨ (s.source = .list ∧ ∃ content, v.1 = .print content) ∨ Validated s before := by
  have hmem : v ∈ trace := htrace ▸ List.mem_append_cons_self
  cases h with
  | listing hs hlists => exact (hlists v hmem).imp_right fun hprint => .inl ⟨hs, hprint⟩
  | nothing hlooks _ => exact .inl (hlooks v hmem)
  | unregistered hprepares =>
    exact (hprepares.looks_or_validated ((List.append_nil _).trans htrace)).imp_right .inr
  | proceeded hprepares _ => exact (hprepares.looks_or_validated htrace).imp_right .inr

/-! ### Taking down -/

/-- What is true when a specification is taken out of the registry, with what was done since the
registry gave it and with what is done after that. -/
structure TakesDown (s : Settings) (a : Application) (base name : String)
    (done after : List Event) : Prop where
  asked : s.UnregistersAt base name
  deploy : s.deploy = true
  /-- The plan to take the application down was applied to the last step. -/
  applied : ∃ found t ns p applied text, done = found ++ applied ++ [⟨.tell text, ()⟩] ∧
    Files found ∧ t.backend = s.executor ∧ planFor s t ns a = .ok p ∧ p.mode = .delete ∧
    p.Applied applied
  /-- Nothing is done after that, but for showing logs. -/
  last : Logs after

theorem Prepares.not_isRemoval (h : Prepares s a first) : ∀ v ∈ first, ¬ v.1.IsRemoval := by
  rcases h.looks_or_stores with hlooks | ⟨base, given, look, answer, rfl, hunstored⟩
  · exact fun v hv => (hlooks v hv).not_isRemoval
  · obtain ⟨existing, -, rfl⟩ := hunstored.other
    simp only [List.forall_mem_cons]
    exact ⟨hunstored.gives.looks.not_isRemoval, nofun, nofun, fun v hv => absurd hv (by simp)⟩

theorem Files.not_isRemoval (h : Files later) : ∀ v ∈ later, ¬ v.1.IsRemoval :=
  fun v hv => (h.looks v hv).not_isRemoval

theorem not_isRemoval_of_carryOut {p : Plan} {q : Except Error Unit}
    (h : Program.Path (carryOut s p a).run later q) : ∀ v ∈ later, ¬ v.1.IsRemoval :=
  (only_carryOut (fun _ hkeeps => hkeeps.works.not_isRemoval) (fun _ => nofun)
    (fun _ _ => Action.Works.not_isRemoval) p a).of_path h

theorem Logs.not_isRemoval (h : Logs later) : ∀ v ∈ later, ¬ v.1.IsRemoval :=
  fun v hv => (h v hv).not_isRemoval

/-- Once its specification is there, a run takes none out of the registry, or one at the end. -/
theorem Proceeds.takesDown (h : Proceeds s a later r) :
    (∀ v ∈ later, ¬ v.1.IsRemoval) ∨ ∃ base name answer done logs,
      later = done ++ ⟨.registry base (.delete name), answer⟩ :: logs ∧
      (∀ v ∈ done, ¬ v.1.IsRemoval) ∧ TakesDown s a base name done logs := by
  cases h with
  | stopped hfiles => exact .inl hfiles.not_isRemoval
  | failed hfiles _ _ _ hcarries =>
    exact .inl (List.forall_mem_append.mpr
      ⟨hfiles.not_isRemoval, not_isRemoval_of_carryOut hcarries⟩)
  | undeployed hfiles _ hlogs =>
    exact .inl (List.forall_mem_append.mpr ⟨hfiles.not_isRemoval, hlogs.not_isRemoval⟩)
  | @deployed found carried removal logs _ _ _ _ hfiles ht hdeploy hplan hcarries hremoval hlogs =>
    have hdone : ∀ v ∈ found ++ carried, ¬ v.1.IsRemoval := List.forall_mem_append.mpr
      ⟨hfiles.not_isRemoval, not_isRemoval_of_carryOut hcarries⟩
    cases hremoval with
    | kept _ =>
      rw [List.append_nil]
      exact .inl (List.forall_mem_append.mpr ⟨hdone, hlogs.not_isRemoval⟩)
    | @removed base name hasked answer =>
      obtain ⟨applied, text, rfl, happlied⟩ :=
        applied_of_path_carryOut hasked.real hasked.noDump hcarries
      have hmode := (Plan.mode_compile hplan).trans (if_pos hasked.delete)
      refine .inr ⟨base, name, answer, found ++ (applied ++ [⟨.tell text, ()⟩]), logs,
        List.append_assoc .., hdone, ?_⟩
      exact ⟨hasked, hdeploy, ⟨found, _, _, _, applied, text, (List.append_assoc ..).symm, hfiles,
        ht, hplan, hmode, happlied⟩, hlogs⟩

/-- With success a run that is to take a specification out of the registry does so. -/
theorem Course.removes_of_ok {base name : String} (h : Course s trace (.ok ()))
    (hasked : s.UnregistersAt base name) (hdeploy : s.deploy = true) :
    ∃ v ∈ trace, v.1 = .registry base (.delete name) := by
  cases h with
  | listing hs _ => exact nomatch hs.symm.trans hasked.source
  | proceeded _ hproceeds =>
    cases hproceeds with
    | undeployed _ hnot => exact nomatch hdeploy.symm.trans hnot
    | deployed _ _ _ _ _ hremoval _ =>
      cases hremoval with
      | kept hnot => exact absurd hasked (hnot base name)
      | removed hasked' answer =>
        obtain rfl := Option.some.inj (hasked'.url.symm.trans hasked.url)
        obtain rfl := Source.registry.inj (hasked'.source.symm.trans hasked.source)
        refine ⟨⟨.registry _ (.delete _), answer⟩, ?_, rfl⟩
        simp

/-- What comes from the registry is not registered there. -/
theorem Prepares.eq_singleton {name : String} (h : Prepares s a first)
    (hs : s.source = .registry name) :
    ∃ given, first = [given] ∧ Gives s given a ∧ a.validate = .ok () := by
  have hnot (base : String) : ¬ s.RegistersAt base := by
    intro hbase
    obtain ⟨path, hpath⟩ := hbase.file
    exact nomatch hs.symm.trans hpath
  obtain ⟨hgives, hvalid, hregisters⟩ := h
  cases hregisters with
  | unasked => exact ⟨_, rfl, hgives, hvalid⟩
  | unknown hbase => exact absurd hbase (hnot _)
  | same hbase => exact absurd hbase (hnot _)
  | stored hbase => exact absurd hbase (hnot _)

theorem Course.takesDown {base name : String} {answer : Except Registry.ClientError Unit}
    (h : Course s trace r)
    (htrace : trace = before ++ ⟨.registry base (.delete name), answer⟩ :: after) :
    ∃ given a done, before = given :: done ∧ Gives s given a ∧ a.validate = .ok () ∧
      TakesDown s a base name done after := by
  have hremoval : Action.IsRemoval (.registry base (.delete name)) := ⟨base, name, rfl⟩
  have hmem : ⟨.registry base (.delete name), answer⟩ ∈ trace :=
    htrace ▸ List.mem_append_cons_self
  cases h with
  | listing _ hlists =>
    rcases hlists _ hmem with hlooks | ⟨content, hprint⟩
    · exact absurd hremoval hlooks.not_isRemoval
    · exact absurd hprint nofun
  | nothing hlooks _ => exact absurd hremoval (hlooks _ hmem).not_isRemoval
  | unregistered hprepares => exact absurd hremoval (hprepares.not_isRemoval _ hmem)
  | proceeded hprepares hproceeds =>
    rcases hproceeds.takesDown with hnone | ⟨base', name', answer', done, logs, rfl, hdone, htakes⟩
    · exact absurd hremoval (List.forall_mem_append.mpr ⟨hprepares.not_isRemoval, hnone⟩ _ hmem)
    obtain ⟨given, rfl, hgives, hvalid⟩ := hprepares.eq_singleton htakes.asked.source
    -- there is one removal only, so that the trace is split at it in one way
    have hbefore : ⟨.registry base (.delete name), answer⟩ ∉ given :: done := by
      intro hv
      rcases List.mem_cons.mp hv with rfl | hv
      · exact hgives.looks.not_isRemoval hremoval
      · exact hdone _ hv hremoval
    have hafter : ⟨.registry base (.delete name), answer⟩ ∉ logs := fun hv =>
      htakes.last.not_isRemoval _ hv hremoval
    have hsplit : (given :: done) ++ ⟨.registry base' (.delete name'), answer'⟩ :: logs
        = before ++ ⟨.registry base (.delete name), answer⟩ :: after := htrace
    obtain ⟨rfl, hcall, rfl⟩ := (List.append_cons_inj_of_notMem hbefore hafter).mp hsplit
    cases hcall
    exact ⟨given, _, done, rfl, hgives, hvalid, htakes⟩

/-- Before a specification is unregistered no step has failed, and none follows. -/
theorem TakesDown.not_failed {base name : String} {done : List Event} {given : Event}
    {answer : Except Registry.ClientError Unit} (h : TakesDown s a base name done after)
    (hgives : Gives s given a) :
    ∀ v ∈ given :: done ++ ⟨.registry base (.delete name), answer⟩ :: after, ¬ Failed v := by
  obtain ⟨found, t, ns, p, applied, text, rfl, hfiles, -, -, -, happlied⟩ := h.applied
  intro v hv
  simp only [List.mem_append, List.mem_cons, List.not_mem_nil, or_false] at hv
  rcases hv with (rfl | (hv | hv) | rfl) | rfl | hv
  · exact Plan.not_failed_of_looks hgives.looks
  · exact Plan.not_failed_of_looks (hfiles.looks v hv)
  · exact happlied.not_failed v hv
  · exact id
  · exact id
  · exact Plan.not_failed_of_attaches (h.last v hv)

/-- **Nothing is touched before validation, and nothing unregistered before the last step.**
Whatever is answered, a run touches nothing before it has obtained a valid specification, the
printing of a listing apart.  It takes a specification out of the registry only if it came from
there and is to be taken down for real, after its plan was applied to the last step; so a run in
which a step fails takes out nothing.  With success a run that is to take it out has done so. -/
theorem validated_and_takesDown (h : Program.Path (run s).run trace r) :
    (∀ before v after, trace = before ++ v :: after →
      v.1.Looks ∨ (s.source = .list ∧ ∃ content, v.1 = .print content) ∨ Validated s before) ∧
    (∀ before base name answer after,
      trace = before ++ ⟨.registry base (.delete name), answer⟩ :: after →
        ∃ given a done, before = given :: done ∧ Gives s given a ∧ a.validate = .ok () ∧
          TakesDown s a base name done after) ∧
    (∀ u ∈ trace, Failed u → ∀ v ∈ trace, ¬ v.1.IsRemoval) ∧
    ∀ base name, s.UnregistersAt base name → s.deploy = true → r = .ok () →
      ∃ v ∈ trace, v.1 = .registry base (.delete name) := by
  have hcourse := course_of_path h
  refine ⟨fun before v after => hcourse.looks_or_validated,
    fun before base name answer after => hcourse.takesDown, ?_, ?_⟩
  · intro u hu hfailed v hv
    obtain ⟨x, answer⟩ := v
    rintro ⟨base, name, rfl⟩
    obtain ⟨before, after, rfl⟩ := List.append_of_mem hv
    obtain ⟨given, a, done, rfl, hgives, -, htakes⟩ := hcourse.takesDown rfl
    exact htakes.not_failed hgives u hu hfailed
  · intro base name hasked hdeploy hr
    rw [hr] at hcourse
    exact hcourse.removes_of_ok hasked hdeploy

/-- A run that takes down what is registered as a shop. -/
def closing : Settings :=
  { source := .registry "shop", executor := .docker, delete := true,
    registryUrl := some "http://localhost:8080" }

def registeredShop : Application :=
  { name := "shop", services := [{ name := "web", containers := [{ image := "acme/web:1" }] }] }

/-- The container is removed, and then the registry's entry. -/
theorem validated_and_takesDown_closing :
    ∃ given done, Program.Path (run closing).run
        (given :: done ++ [⟨.registry "http://localhost:8080" (.delete "shop"), .ok ()⟩])
        (.ok ()) ∧
      Gives closing given registeredShop ∧ registeredShop.validate = .ok () ∧
      TakesDown closing registeredShop "http://localhost:8080" "shop" done [] := by
  have hgives : Gives closing
      ⟨.registry "http://localhost:8080" (.get "shop"), .ok (some registeredShop)⟩
      registeredShop := .registry rfl rfl
  have hrun : Program.Path (run closing).run
      [⟨.registry "http://localhost:8080" (.get "shop"), .ok (some registeredShop)⟩,
        ⟨.command ["docker", "rm", "-f", "web"], .ok { code := some 0 }⟩, ⟨.print [], .ok ()⟩,
        ⟨.tell "Success: Deleted shop\n", ()⟩,
        ⟨.registry "http://localhost:8080" (.delete "shop"), .ok ()⟩]
      (.ok ()) :=
    .act _ _ (.act _ _ (.act _ _ (.act _ _ (.act _ _ (.done _)))))
  obtain ⟨given, a, done, hbefore, hfound, hvalid, htakes⟩ :=
    (validated_and_takesDown hrun).2.1 [_, _, _, _] _ _ _ [] rfl
  obtain ⟨rfl, rfl⟩ := List.cons_eq_cons.mp hbefore
  obtain rfl := hgives.unique hfound
  exact ⟨_, [_, _, _], hrun, hgives, hvalid, htakes⟩

end Pipeline

end Rollout
