/-
What the report on a specification lists, and how often.

Validation goes through the services once, with the names that it has come by.  What it reports is
counted here against what is broken at each position.

* `Service.breaks` and `Application.breaks` say which rules are broken, `Application.occurrences`
  how often each is;
* `Service.mem_violations_iff`: a service is reported for all that it breaks if it has a name, and
  only for having none otherwise;
* `serviceViolations_eq_flatMap`: the names that it has come by are those of the services before;
* `Application.validate_reports` counts the violations of a whole report, and says when it is
  complete.
-/
import Mathlib.Data.List.Sigma
import Rollout.Proofs.Spec.Validation

namespace Rollout.Spec

/-! ### Broken rules -/

/-- A service at a position, after services of some names, breaks a rule.  An empty name is none, so
that it repeats no other. -/
def Service.breaks (s : Service) (index : Nat) (before : List String) : Violation → Bool
  | .unnamedService i => s.name.isEmpty && index == i
  | .duplicateService name => !name.isEmpty && s.name == name && before.contains name
  | .missingImage name i => s.name == name && s.containers[i]?.any (Text.isBlankText ·.image)
  | .replicasAndShards name => s.name == name && s.hasConflictingScale
  | .emptyName | .unknownServeTarget _ => false

/-- A specification breaks a rule that is not about one of its services. -/
def Application.breaks (a : Application) : Violation → Bool
  | .emptyName => Text.isBlankText a.name
  | .unknownServeTarget name => a.serve.any (·.name == name) && !a.serviceNames.contains name
  | _ => false

/-- How often a rule is broken in a specification, by itself and at the positions of services. -/
def Application.occurrences (a : Application) (v : Violation) : Nat :=
  (a.breaks v).toNat + a.services.zipIdx.countP fun (s, i) =>
    s.breaks i ((a.services.take i).map (·.name)) v

/-! ### One service -/

namespace Service

theorem nodup_imageViolations (s : Service) : s.imageViolations.Nodup := by
  -- the violations of two containers differ in the position
  rw [imageViolations, List.Nodup, List.pairwise_filterMap]
  refine (List.pairwise_map.mp (List.nodup_zipIdx_map_snd s.containers)).imp ?_
  rintro ⟨c, i⟩ ⟨d, j⟩ hij v hv w hw rfl
  obtain ⟨-, hv⟩ := Option.ite_none_right_eq_some.mp hv
  obtain ⟨-, hw⟩ := Option.ite_none_right_eq_some.mp hw
  have heq := (Option.some_inj.mp hv).trans (Option.some_inj.mp hw).symm
  exact hij (Violation.missingImage.inj heq).2

theorem violations_of_unnamed {s : Service} (h : s.name = "") (index : Nat) (seen : List String) :
    s.violations index seen = [.unnamedService index] := by
  rw [violations, h]
  rfl

theorem violations_of_named {s : Service} (h : s.name ≠ "") (index : Nat) (seen : List String) :
    s.violations index seen =
      (if s.name ∈ seen then [.duplicateService s.name] else []) ++ s.imageViolations ++
        if s.hasConflictingScale then [.replicasAndShards s.name] else [] := by
  rw [violations, if_neg (by simpa using h), check]
  cases s.hasConflictingScale <;> rfl

/-- A service is reported for every rule that it breaks under its name. -/
theorem mem_violations_iff (s : Service) (index : Nat) (seen : List String) (v : Violation) :
    v ∈ s.violations index seen ↔ v.service? ≠ some "" ∧ s.breaks index seen v = true := by
  by_cases h : s.name = ""
  · rw [violations_of_unnamed h, List.mem_singleton]
    cases v with
    | unnamedService i => simp [Violation.service?, breaks, h, eq_comm (a := i)]
    | emptyName => simp [breaks]
    | unknownServeTarget name => simp [breaks]
    | duplicateService name => simp +contextual [Violation.service?, breaks, h]
    | missingImage name i => simp +contextual [Violation.service?, breaks, h]
    | replicasAndShards name => simp +contextual [Violation.service?, breaks, h]
  · -- a violation is reported under the name of the service, which is not empty
    rw [violations_of_named h, List.mem_append, List.mem_append, mem_imageViolations_iff]
    cases v with
    | emptyName => simp [breaks]
    | unnamedService i => simp [breaks, h]
    | unknownServeTarget name => simp [breaks]
    | duplicateService name =>
      rcases eq_or_ne name s.name with rfl | hne
      · simp [Violation.service?, breaks, h]
      · simp [breaks, hne, hne.symm]
    | missingImage name i =>
      rcases eq_or_ne name s.name with rfl | hne
      · simp [Violation.service?, breaks, h, Option.any_eq_true]
      · simp [breaks, hne, hne.symm]
    | replicasAndShards name =>
      rcases eq_or_ne name s.name with rfl | hne
      · simp [Violation.service?, breaks, h]
      · simp [breaks, hne, hne.symm]

theorem nodup_violations (s : Service) (index : Nat) (seen : List String) :
    (s.violations index seen).Nodup := by
  by_cases h : s.name = ""
  · rw [violations_of_unnamed h]
    exact List.nodup_singleton _
  · have himages {v : Violation} (hv : v ∈ s.imageViolations) :
        v ≠ .duplicateService s.name ∧ v ≠ .replicasAndShards s.name := by
      obtain ⟨i, c, -, -, rfl⟩ := s.mem_imageViolations_iff v |>.mp hv
      exact ⟨nofun, nofun⟩
    rw [violations_of_named h, List.nodup_append, List.nodup_append]
    refine ⟨⟨by split <;> simp, s.nodup_imageViolations, ?_⟩, by split <;> simp, ?_⟩
    · intro v hv w hw
      obtain rfl := List.mem_singleton.mp (List.mem_ite_nil_right.mp hv).2
      exact (himages hw).1.symm
    · intro v hv w hw
      obtain rfl := List.mem_singleton.mp (List.mem_ite_nil_right.mp hw).2
      rcases List.mem_append.mp hv with hv | hv
      · obtain rfl := List.mem_singleton.mp (List.mem_ite_nil_right.mp hv).2
        exact nofun
      · exact (himages hv).2

/-- A service is reported once for every rule that it breaks under its name. -/
theorem count_violations (s : Service) (index : Nat) (seen : List String) (v : Violation) :
    (s.violations index seen).count v
      = if v.service? = some "" then 0 else (s.breaks index seen v).toNat := by
  rw [(s.nodup_violations index seen).count, if_congr (s.mem_violations_iff index seen v) rfl rfl]
  by_cases hv : v.service? = some ""
  · simp [hv]
  · cases s.breaks index seen v <;> simp [hv]

end Service

/-! ### One after another -/

/-- The names before a service are those of the services before it. -/
theorem serviceViolations_eq_flatMap (before l : List Service) :
    serviceViolations before.length (before.map (·.name)) l =
      (l.zipIdx before.length).flatMap fun (s, i) =>
        s.violations i (((before ++ l).take i).map (·.name)) := by
  induction l generalizing before with
  | nil => rfl
  | cons s l ih =>
    -- the first service goes over to those before
    have hrest := ih (before ++ [s])
    rw [List.length_append, List.length_singleton, List.map_append, List.map_singleton,
      List.append_assoc, List.singleton_append] at hrest
    have hbefore : (before ++ s :: l).take before.length = before := List.take_left
    rw [serviceViolations, hrest, List.zipIdx_cons, List.flatMap_cons]
    simp only [hbefore]

theorem count_flatMap_eq_countP {α β : Type} [BEq β] {f : α → List β} {p : α → Bool} {b : β}
    (l : List α) (h : ∀ x, (f x).count b = (p x).toNat) :
    (l.flatMap f).count b = l.countP p := by
  induction l with
  | nil => rfl
  | cons x l ih =>
    rw [List.flatMap_cons, List.count_append, h, ih, List.countP_cons, Nat.add_comm]
    cases p x <;> rfl

theorem count_serviceViolations (l : List Service) (v : Violation) :
    (serviceViolations 0 [] l).count v = if v.service? = some "" then 0 else
      l.zipIdx.countP fun (s, i) => s.breaks i ((l.take i).map (·.name)) v := by
  have hflat : serviceViolations 0 [] l =
      l.zipIdx.flatMap fun (s, i) => s.violations i ((l.take i).map (·.name)) :=
    serviceViolations_eq_flatMap [] l
  rw [hflat]
  split
  · next hv =>
    -- no service is reported under the empty name
    rw [List.count_eq_zero, List.mem_flatMap]
    rintro ⟨⟨s, i⟩, -, hmem⟩
    exact ((s.mem_violations_iff i _ v).mp hmem).1 hv
  · next hv =>
    refine count_flatMap_eq_countP l.zipIdx ?_
    rintro ⟨s, i⟩
    rw [s.count_violations, if_neg hv]

namespace Application

theorem service?_of_breaks {a : Application} {v : Violation} (h : a.breaks v = true) :
    v.service? = none := by
  cases v <;> first | rfl | exact absurd h Bool.false_ne_true

theorem count_emptyName (a : Application) (v : Violation) :
    (if Text.isBlankText a.name then [Violation.emptyName] else []).count v
      = if v = .emptyName then (a.breaks v).toNat else 0 := by
  cases v <;> cases h : Text.isBlankText a.name <;> simp [breaks, h]

theorem count_unknownServeTarget (a : Application) (v : Violation) :
    (a.serve.elim [] fun serve => if serve.name ∈ a.serviceNames then []
      else [Violation.unknownServeTarget serve.name]).count v
      = if v = .emptyName then 0 else (a.breaks v).toNat := by
  cases h : a.serve with
  | none => cases v <;> simp [breaks, h]
  | some serve =>
    cases v with
    | unknownServeTarget name =>
      rcases eq_or_ne serve.name name with rfl | hne
      · by_cases hmem : serve.name ∈ a.serviceNames <;> simp [breaks, h, hmem]
      · have hname : (serve.name == name) = false := beq_false_of_ne hne
        by_cases hmem : serve.name ∈ a.serviceNames <;> simp [breaks, h, hmem, hne, hname]
    | _ => by_cases hmem : serve.name ∈ a.serviceNames <;> simp [breaks, hmem]

theorem violations_eq (a : Application) :
    a.violations = (if Text.isBlankText a.name then [.emptyName] else [])
      ++ serviceViolations 0 [] a.services
      ++ a.serve.elim [] fun serve => if serve.name ∈ a.serviceNames then []
        else [.unknownServeTarget serve.name] := by
  unfold violations
  cases a.serve <;> rfl

theorem count_violations (a : Application) (v : Violation) :
    a.violations.count v = if v.service? = some "" then 0 else a.occurrences v := by
  have hown : (if v = .emptyName then (a.breaks v).toNat else 0)
      + (if v = .emptyName then 0 else (a.breaks v).toNat) = (a.breaks v).toNat := by
    split <;> simp
  rw [violations_eq, List.count_append, List.count_append, a.count_emptyName,
    a.count_unknownServeTarget, Nat.add_right_comm, hown, count_serviceViolations, occurrences]
  split
  · next hv =>
    cases hbreaks : a.breaks v with
    | true => exact absurd (hv.symm.trans (service?_of_breaks hbreaks)) nofun
    | false => rfl
  · rfl

theorem occurrences_eq_zero_iff {a : Application} {v : Violation} :
    a.occurrences v = 0 ↔ a.breaks v = false ∧ ∀ (i : Nat) (s : Service),
      a.services[i]? = some s → s.breaks i ((a.services.take i).map (·.name)) v = false := by
  rw [occurrences, Nat.add_eq_zero_iff, Bool.toNat_eq_zero, List.countP_eq_zero]
  refine and_congr_right fun _ => ?_
  constructor
  · intro h i s hs
    simpa using h (s, i) (List.mem_zipIdx_iff_getElem?.mpr hs)
  · rintro h ⟨s, i⟩ hmem
    simpa using h i s (List.mem_zipIdx_iff_getElem?.mp hmem)

/-- What is broken under the empty name: a service without a name lacks an image, or mixes replicas
and shards. -/
theorem occurrences_of_emptyName_iff (a : Application) :
    (∀ v : Violation, v.service? = some "" → a.occurrences v = 0) ↔
      ∀ s ∈ a.services, s.name = "" → s.hasConflictingScale = false ∧
        ∀ c ∈ s.containers, Text.isBlankText c.image = false := by
  simp only [occurrences_eq_zero_iff]
  constructor
  · intro h s hs hname
    obtain ⟨i, hi⟩ := List.mem_iff_getElem?.mp hs
    refine ⟨?_, fun c hc => ?_⟩
    · have hscale := (h (.replicasAndShards "") rfl).2 i s hi
      simpa [Service.breaks, hname] using hscale
    · obtain ⟨k, hk⟩ := List.mem_iff_getElem?.mp hc
      have himage := (h (.missingImage "" k) rfl).2 i s hi
      simpa [Service.breaks, hname, hk] using himage
  · intro h v hv
    cases v with
    | emptyName => exact absurd hv nofun
    | unnamedService _ => exact absurd hv nofun
    | unknownServeTarget _ => exact absurd hv nofun
    | duplicateService name =>
      obtain rfl := Option.some_inj.mp hv
      exact ⟨rfl, fun i s hs => rfl⟩
    | missingImage name k =>
      obtain rfl := Option.some_inj.mp hv
      refine ⟨rfl, fun i s hs => ?_⟩
      rw [Service.breaks, Bool.and_eq_false_imp]
      intro hname
      have himages := (h s (List.mem_of_getElem? hs) (by simpa using hname)).2
      cases hc : s.containers[k]? with
      | none => rfl
      | some c => exact himages c (List.mem_of_getElem? hc)
    | replicasAndShards name =>
      obtain rfl := Option.some_inj.mp hv
      refine ⟨rfl, fun i s hs => ?_⟩
      rw [Service.breaks, Bool.and_eq_false_imp]
      intro hname
      exact (h s (List.mem_of_getElem? hs) (by simpa using hname)).1

/-- **Everything is reported at once, except what is wrong with a service besides that it has no
name.**  Every other violation is reported once for every position at which its rule is broken, and
nothing else is reported.  So the report is complete just when each service without a name has all
its images and one scale. -/
theorem validate_reports (a : Application) : ∃ vs : List Violation,
    a.validate = (if vs = [] then .ok () else .error vs) ∧
      (∀ v, vs.count v = if v.service? = some "" then 0 else a.occurrences v) ∧
      ((∀ v, vs.count v = a.occurrences v) ↔
        ∀ s ∈ a.services, s.name = "" → s.hasConflictingScale = false ∧
          ∀ c ∈ s.containers, Text.isBlankText c.image = false) := by
  refine ⟨a.violations, a.validate_eq, a.count_violations, ?_⟩
  rw [← a.occurrences_of_emptyName_iff]
  refine forall_congr' fun v => ?_
  rw [a.count_violations]
  split
  · next hv => exact ⟨fun h _ => h.symm, fun h => (h hv).symm⟩
  · next hv => exact ⟨fun _ h => absurd h hv, fun _ => rfl⟩

/-- Nothing but the missing name of this service is reported. -/
def unnamedMixture : Application :=
  { name := "app",
    services := [{ name := "", containers := [{ image := "" }], replicas := 1,
                   sharding := some { shards := 2 } }] }

example : unnamedMixture.violations = [.unnamedService 0] := by decide

end Application

end Rollout.Spec
