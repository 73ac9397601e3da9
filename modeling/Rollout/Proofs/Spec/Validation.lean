/-
When a specification breaks no rule.

* `Service.violations_eq_nil_iff` says it of one service after others;
* `serviceViolations_eq_nil_iff` says it of services in a row;
* `Application.validate_eq_ok_iff` says it of a whole specification;
* `Application.validate_eq_ok_iff_sound` says it without the checks, by `Application.Sound`.
-/
import Mathlib.Data.List.Nodup
import Rollout.Spec.Validation

namespace Rollout.Spec

namespace Service

theorem check_eq_ok_iff (s : Service) : s.check = .ok () ↔ s.hasConflictingScale = false := by
  unfold check
  cases s.hasConflictingScale <;> simp

theorem hasConflictingScale_iff (s : Service) :
    s.hasConflictingScale = true ↔ 0 < s.replicas ∧ s.sharding.isSome = true := by
  rw [hasConflictingScale, Bool.and_eq_true, decide_eq_true_iff]

theorem check_eq_ok_iff_oneScale (s : Service) :
    s.check = .ok () ↔ ¬ (0 < s.replicas ∧ s.sharding.isSome = true) := by
  rw [s.check_eq_ok_iff, ← Bool.not_eq_true, s.hasConflictingScale_iff]

/-- A container without an image is a violation of its service under its position. -/
theorem mem_imageViolations_iff (s : Service) (v : Violation) :
    v ∈ s.imageViolations ↔
      ∃ i c, s.containers[i]? = some c ∧ Text.isBlankText c.image = true ∧
        v = .missingImage s.name i := by
  rw [imageViolations, List.mem_filterMap]
  constructor
  · rintro ⟨⟨c, i⟩, hmem, hv⟩
    obtain ⟨hblank, hv⟩ := Option.ite_none_right_eq_some.mp hv
    exact ⟨i, c, List.mem_zipIdx_iff_getElem?.mp hmem, hblank, (Option.some_inj.mp hv).symm⟩
  · rintro ⟨i, c, hc, hblank, rfl⟩
    exact ⟨(c, i), List.mem_zipIdx_iff_getElem?.mpr hc, if_pos hblank⟩

theorem imageViolations_eq_nil_iff (s : Service) :
    s.imageViolations = [] ↔ ∀ c ∈ s.containers, Text.isBlankText c.image = false := by
  simp only [List.eq_nil_iff_forall_not_mem, mem_imageViolations_iff, not_exists, not_and]
  constructor
  · intro h c hc
    obtain ⟨i, hi⟩ := List.mem_iff_getElem?.mp hc
    exact Bool.eq_false_iff.mpr fun hblank => h _ i c hi hblank rfl
  · intro h v i c hi hblank
    rw [h c (List.mem_of_getElem? hi)] at hblank
    exact absurd hblank Bool.false_ne_true

theorem violations_eq_nil_iff (s : Service) (index : Nat) (seen : List String) :
    s.violations index seen = [] ↔
      s.name ≠ "" ∧ s.name ∉ seen ∧ s.imageViolations = [] ∧ s.check = .ok () := by
  unfold violations
  by_cases hname : s.name = ""
  · simp [hname]
  · rw [if_neg (by simpa using hname), List.append_eq_nil_iff, List.append_eq_nil_iff, and_assoc]
    refine ⟨?_, ?_⟩
    · rintro ⟨hseen, himages, hcheck⟩
      refine ⟨hname, fun h => ?_, himages, ?_⟩
      · simp [h] at hseen
      · cases hc : s.check with
        | ok u => rfl
        | error v => simp [hc] at hcheck
    · rintro ⟨-, hseen, himages, hcheck⟩
      rw [if_neg hseen, hcheck]
      exact ⟨rfl, himages, rfl⟩

end Service

theorem serviceViolations_eq_nil_iff (index : Nat) (seen : List String) (l : List Service) :
    serviceViolations index seen l = [] ↔
      (l.map (·.name)).Nodup ∧
      ∀ s ∈ l, s.name ≠ "" ∧ s.name ∉ seen ∧ s.imageViolations = [] ∧ s.check = .ok () := by
  induction l generalizing index seen with
  | nil => simp [serviceViolations]
  | cons s l ih =>
    rw [serviceViolations, List.append_eq_nil_iff, s.violations_eq_nil_iff, ih, List.map_cons,
      List.nodup_cons, List.forall_mem_cons]
    -- the rest comes after the names before and the name of the first service
    constructor
    · rintro ⟨hs, hnames, hl⟩
      refine ⟨⟨fun hmem => ?_, hnames⟩, hs, fun t ht => ?_⟩
      · obtain ⟨t, ht, heq⟩ := List.mem_map.mp hmem
        exact (hl t ht).2.1 (by simp [heq])
      · obtain ⟨hname, hseen, hrest⟩ := hl t ht
        exact ⟨hname, fun h => hseen (List.mem_append_left _ h), hrest⟩
    · rintro ⟨⟨hs', hnames⟩, hs, hl⟩
      refine ⟨hs, hnames, fun t ht => ?_⟩
      obtain ⟨hname, hseen, hrest⟩ := hl t ht
      refine ⟨hname, fun h => ?_, hrest⟩
      rcases List.mem_append.mp h with h | h
      · exact hseen h
      · exact hs' (List.mem_map.mpr ⟨t, ht, List.mem_singleton.mp h⟩)

theorem Application.validate_eq (a : Application) :
    a.validate = if a.violations = [] then .ok () else .error a.violations := by
  unfold validate
  cases a.violations <;> rfl

theorem Application.validate_eq_ok_iff (a : Application) :
    a.validate = .ok () ↔
      ¬ Text.isBlankText a.name ∧ (a.services.map (·.name)).Nodup ∧
      (∀ s ∈ a.services, s.name ≠ "" ∧ s.imageViolations = [] ∧ s.check = .ok ()) ∧
      ∀ serve ∈ a.serve, serve.name ∈ a.serviceNames := by
  have hnil : a.validate = .ok () ↔ a.violations = [] := by
    rw [validate_eq]
    split <;> simp [*]
  rw [hnil, violations, List.append_eq_nil_iff, List.append_eq_nil_iff,
    serviceViolations_eq_nil_iff, and_assoc, and_assoc]
  refine and_congr ?_ (and_congr_right fun _ => and_congr ?_ ?_)
  · cases Text.isBlankText a.name <;> simp
  · simp
  · cases a.serve with
    | none => simp
    | some serve => by_cases h : serve.name ∈ a.serviceNames <;> simp [h]

/-! ### Without the checks -/

/-- A specification that makes sense. -/
structure Application.Sound (a : Application) : Prop where
  named : ∃ x ∈ a.name.toList, ¬ Text.isBlank x
  servicesNamed : ∀ s ∈ a.services, s.name ≠ ""
  distinct : a.services.Pairwise fun s t => s.name ≠ t.name
  imaged : ∀ s ∈ a.services, ∀ c ∈ s.containers, ∃ x ∈ c.image.toList, ¬ Text.isBlank x
  oneScale : ∀ s ∈ a.services, ¬ (0 < s.replicas ∧ s.sharding.isSome = true)
  served : ∀ serve ∈ a.serve, ∃! i : Nat, a.services[i]?.map (·.name) = some serve.name

theorem mem_serviceNames_iff {a : Application} {name : String} :
    name ∈ a.serviceNames ↔ name ≠ "" ∧ ∃ s ∈ a.services, s.name = name := by
  simp [Application.serviceNames, and_comm]

/-- Among services that all have names, and different ones, one that goes by a name is the only
one. -/
theorem existsUnique_service_iff {a : Application} (hnamed : ∀ s ∈ a.services, s.name ≠ "")
    (hdistinct : (a.services.map (·.name)).Nodup) (name : String) :
    (∃! i : Nat, a.services[i]?.map (·.name) = some name) ↔ name ∈ a.serviceNames := by
  rw [mem_serviceNames_iff]
  constructor
  · rintro ⟨i, hi, -⟩
    obtain ⟨s, hs, rfl⟩ := Option.map_eq_some_iff.mp hi
    have hmem := List.mem_of_getElem? hs
    exact ⟨hnamed s hmem, s, hmem, rfl⟩
  · rintro ⟨-, s, hmem, rfl⟩
    obtain ⟨i, hi⟩ := List.mem_iff_getElem?.mp hmem
    have hname : a.services[i]?.map (·.name) = some s.name := by rw [hi, Option.map_some]
    refine ⟨i, hname, fun j hj => ?_⟩
    rw [← List.getElem?_map] at hname hj
    exact (List.getElem?_inj (List.getElem?_eq_some_iff.mp hj).1 hdistinct).mp
      (hj.trans hname.symm)

/-- **Exactly the sound specifications are valid.** -/
theorem Application.validate_eq_ok_iff_sound (a : Application) :
    a.validate = .ok () ↔ a.Sound := by
  rw [a.validate_eq_ok_iff, Bool.not_eq_true, Text.isBlankText_eq_false_iff]
  constructor
  · rintro ⟨hname, hdistinct, hservices, hserve⟩
    have hnamed : ∀ s ∈ a.services, s.name ≠ "" := fun s hs => (hservices s hs).1
    refine ⟨hname, hnamed, List.pairwise_map.mp hdistinct, fun s hs c hc => ?_, fun s hs => ?_,
      fun serve h => (existsUnique_service_iff hnamed hdistinct serve.name).mpr (hserve serve h)⟩
    · have himages := s.imageViolations_eq_nil_iff.mp (hservices s hs).2.1
      exact (Text.isBlankText_eq_false_iff _).mp (himages c hc)
    · exact s.check_eq_ok_iff_oneScale.mp (hservices s hs).2.2
  · rintro ⟨hname, hnamed, hpairwise, himaged, hscale, hserved⟩
    have hdistinct : (a.services.map (·.name)).Nodup := List.pairwise_map.mpr hpairwise
    refine ⟨hname, hdistinct, fun s hs => ⟨hnamed s hs, ?_, ?_⟩,
      fun serve h => (existsUnique_service_iff hnamed hdistinct serve.name).mp (hserved serve h)⟩
    · exact s.imageViolations_eq_nil_iff.mpr fun c hc =>
        (Text.isBlankText_eq_false_iff _).mpr (himaged s hs c hc)
    · exact s.check_eq_ok_iff_oneScale.mpr (hscale s hs)

end Rollout.Spec
