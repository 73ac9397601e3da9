/-
Nothing of a resource is lost in its document.

What is empty is left out of a document, so that its fields have no fixed places.  They are looked
up by their names instead: each is found where it was written, or not at all if it was empty.

* `Value.unlessEmpty_injective`: a list is left out in one case only;
* `Resource.toJson_injective`, `Target.toJson_injective`: the documents of resources and targets;
* `Resource.toJson_ne_toJson`: a resource and a target never have the same document.
-/
import Mathlib.Data.List.Basic
import Rollout.Kubernetes.Resource
import Rollout.Proofs.Json.Decode

namespace Rollout.Json.Value

/-! ### Fields -/

/-- The value of a field of an object. -/
def field? (name : String) : Value → Option Value
  | object fields => fields.lookup name
  | _ => none

/-- The value of a list, which is left out if the list is empty. -/
def unlessEmpty {α : Type} (f : List α → Value) (xs : List α) : Option Value :=
  if xs.isEmpty then none else some (f xs)

@[simp] theorem field?_object (name : String) (fields : List (String × Value)) :
    (object fields).field? name = fields.lookup name := rfl

theorem optionalField_injective (key : String) : Function.Injective (optionalField key) := by
  intro v v' h
  simpa using congrArg (List.lookup key) h

theorem unlessEmpty_injective {α : Type} {f : List α → Value} (hf : Function.Injective f) :
    Function.Injective (unlessEmpty f) := by
  intro xs ys h
  cases xs <;> cases ys
  case nil.nil => rfl
  case cons.cons => exact hf (Option.some.inj h)
  all_goals exact absurd h (by simp [unlessEmpty])

theorem map_text_injective : Function.Injective (Option.map text) :=
  Option.map_injective fun _ _ => text.inj

theorem unlessEmpty_map_injective {α : Type} {f : α → Value} (hf : Function.Injective f) :
    Function.Injective fun xs : List α => unlessEmpty list (xs.map f) :=
  (unlessEmpty_injective fun _ _ => list.inj).comp (List.map_injective_iff.mpr hf)

end Rollout.Json.Value

namespace Rollout.Spec

open Json (Value)

/-! ### What pods are made of -/

theorem EnvVar.toJson_injective : Function.Injective EnvVar.toJson := by
  rintro ⟨name, value⟩ ⟨name', value'⟩ h
  simpa [toJson] using h

theorem Mount.toJson_injective : Function.Injective Mount.toJson := by
  intro m m' h
  have hfield (key : String) : m.toJson.field? key = m'.toJson.field? key := by rw [h]
  have hname : m.name = m'.name := by
    simpa [toJson, List.lookup_cons] using hfield "name"
  have hpath : m.path = m'.path := by
    simpa [toJson, List.lookup_cons] using hfield "mountPath"
  have hsubPath : m.subPath.map Value.text = m'.subPath.map Value.text := by
    simpa [toJson, List.lookup_cons] using hfield "subPath"
  cases m
  cases m'
  obtain rfl := Value.map_text_injective hsubPath
  simp_all

end Rollout.Spec

namespace Rollout.Kubernetes

open Json (Value listField_eq)
open Spec (EnvVar Mount Volume)

theorem Labels.toJson_injective : Function.Injective Labels.toJson := by
  intro ls ls' h
  refine List.map_injective_iff.mpr ?_ (Value.object.inj h)
  rintro ⟨k, v⟩ ⟨k', v'⟩ heq
  simpa using heq

theorem Metadata.toJson_eq (m : Metadata) :
    m.toJson = .object (Value.optionalField "name" (m.name.map .text)
      ++ Value.optionalField "namespace" (m.ns.map .text)
      ++ Value.optionalField "labels" (Value.unlessEmpty Labels.toJson m.labels)) := by
  rw [toJson, Value.unlessEmpty]
  split <;> rfl

theorem Metadata.toJson_injective : Function.Injective Metadata.toJson := by
  intro m m' h
  have hfield (key : String) : m.toJson.field? key = m'.toJson.field? key := by rw [h]
  have hname : m.name.map Value.text = m'.name.map Value.text := by
    simpa [toJson_eq, List.lookup_append] using hfield "name"
  have hns : m.ns.map Value.text = m'.ns.map Value.text := by
    simpa [toJson_eq, List.lookup_append] using hfield "namespace"
  have hlabels : Value.unlessEmpty Labels.toJson m.labels
      = Value.unlessEmpty Labels.toJson m'.labels := by
    simpa [toJson_eq, List.lookup_append] using hfield "labels"
  cases m
  cases m'
  obtain rfl := Value.map_text_injective hname
  obtain rfl := Value.map_text_injective hns
  obtain rfl := Value.unlessEmpty_injective Labels.toJson_injective hlabels
  rfl

theorem PodContainer.toJson_injective : Function.Injective PodContainer.toJson := by
  intro c c' h
  have hfield (key : String) : c.toJson.field? key = c'.toJson.field? key := by rw [h]
  have hname : c.name = c'.name := by
    simpa [toJson, List.lookup_cons] using hfield "name"
  have himage : c.image = c'.image := by
    simpa [toJson, List.lookup_cons] using hfield "image"
  have henv : Value.unlessEmpty .list (c.env.map EnvVar.toJson)
      = Value.unlessEmpty .list (c'.env.map EnvVar.toJson) := by
    simpa [toJson, listField_eq, Value.unlessEmpty, List.lookup_cons, List.lookup_append]
      using hfield "env"
  have hmounts : Value.unlessEmpty .list (c.mounts.map Mount.toJson)
      = Value.unlessEmpty .list (c'.mounts.map Mount.toJson) := by
    simpa [toJson, listField_eq, Value.unlessEmpty, List.lookup_cons, List.lookup_append]
      using hfield "volumeMounts"
  cases c
  cases c'
  obtain rfl := Value.unlessEmpty_map_injective EnvVar.toJson_injective henv
  obtain rfl := Value.unlessEmpty_map_injective Mount.toJson_injective hmounts
  simp_all

theorem podVolumeToJson_injective : Function.Injective podVolumeToJson := by
  rintro ⟨name, claim⟩ ⟨name', claim'⟩ h
  simpa [podVolumeToJson] using h

theorem PodTemplate.toJson_injective : Function.Injective PodTemplate.toJson := by
  rintro ⟨labels, containers, volumes⟩ ⟨labels', containers', volumes'⟩ h
  obtain ⟨hmetadata, hcontainers, hvolumes⟩ :
      Metadata.toJson { labels } = Metadata.toJson { labels := labels' }
        ∧ containers.map PodContainer.toJson = containers'.map PodContainer.toJson
        ∧ Value.listField "volumes" (volumes.map podVolumeToJson)
          = Value.listField "volumes" (volumes'.map podVolumeToJson) := by
    simpa [toJson] using h
  obtain rfl : labels = labels' := congrArg (·.labels) (Metadata.toJson_injective hmetadata)
  obtain rfl := List.map_injective_iff.mpr PodContainer.toJson_injective hcontainers
  rw [listField_eq, listField_eq] at hvolumes
  obtain rfl := Value.unlessEmpty_map_injective podVolumeToJson_injective
    (Value.optionalField_injective _ hvolumes)
  rfl

/-! ### Resources and targets -/

theorem Exposure.name_injective : Function.Injective Exposure.name := by
  intro e e' h
  cases e <;> cases e' <;> first | rfl | exact absurd h (by decide)

theorem Kind.name_injective : Function.Injective Kind.name := by
  intro k k' h
  cases k <;> cases k' <;> first | rfl | exact absurd h (by decide)

theorem Propagation.name_injective : Function.Injective Propagation.name := by
  intro p p' h
  cases p <;> cases p' <;> first | rfl | exact absurd h (by decide)

theorem servicePortToJson_injective : Function.Injective servicePortToJson := by
  intro n n' h
  have hnumber : (n.toNat : Int) = n'.toNat := by
    simpa [servicePortToJson, List.lookup_cons] using congrArg (Value.field? "port") h
  exact UInt16.toNat_inj.mp (Int.ofNat.inj hnumber)

namespace Resource

theorem deployment_of_specToJson {d d' : Deployment} (hmetadata : d.metadata = d'.metadata)
    (h : (deployment d).specToJson = (deployment d').specToJson) : d = d' := by
  obtain ⟨metadata, replicas, selector, template⟩ := d
  obtain ⟨metadata', replicas', selector', template'⟩ := d'
  obtain ⟨hreplicas, hselector, htemplate⟩ : replicas = replicas'
      ∧ selector.toJson = selector'.toJson ∧ template.toJson = template'.toJson := by
    simpa [specToJson, ← UInt32.toNat_inj, Int.ofNat_inj] using h
  obtain rfl : metadata = metadata' := hmetadata
  obtain rfl := Labels.toJson_injective hselector
  obtain rfl := PodTemplate.toJson_injective htemplate
  rw [hreplicas]

theorem statefulSet_of_specToJson {s s' : StatefulSet} (hmetadata : s.metadata = s'.metadata)
    (h : (statefulSet s).specToJson = (statefulSet s').specToJson) : s = s' := by
  obtain ⟨metadata, replicas, serviceName, selector, template⟩ := s
  obtain ⟨metadata', replicas', serviceName', selector', template'⟩ := s'
  obtain ⟨hreplicas, hserviceName, hselector, htemplate⟩ : replicas = replicas'
      ∧ serviceName = serviceName' ∧ selector.toJson = selector'.toJson
      ∧ template.toJson = template'.toJson := by
    simpa [specToJson, ← UInt32.toNat_inj, Int.ofNat_inj] using h
  obtain rfl : metadata = metadata' := hmetadata
  obtain rfl := Labels.toJson_injective hselector
  obtain rfl := PodTemplate.toJson_injective htemplate
  rw [hreplicas, hserviceName]

theorem service_of_specToJson {s s' : Service} (hmetadata : s.metadata = s'.metadata)
    (h : (service s).specToJson = (service s').specToJson) : s = s' := by
  obtain ⟨metadata, exposure, headless, selector, ports⟩ := s
  obtain ⟨metadata', exposure', headless', selector', ports'⟩ := s'
  -- the second field is the address of a headless service or else the selector
  obtain ⟨hexposure, hheadless, hselector, hports⟩ : exposure.name = exposure'.name
      ∧ headless = headless' ∧ selector.toJson = selector'.toJson
      ∧ ports.map servicePortToJson = ports'.map servicePortToJson := by
    cases headless <;> cases headless' <;> simp_all [specToJson]
  obtain rfl : metadata = metadata' := hmetadata
  obtain rfl := Exposure.name_injective hexposure
  obtain rfl := Labels.toJson_injective hselector
  obtain rfl := List.map_injective_iff.mpr servicePortToJson_injective hports
  rw [hheadless]

/-- **Resources**: nothing of a resource is lost in its document. -/
theorem toJson_injective : Function.Injective toJson := by
  intro r r' h
  obtain ⟨-, hkind, hmetadata, hspec⟩ : _ ∧ r.kind.name = r'.kind.name
      ∧ r.metadata.toJson = r'.metadata.toJson ∧ r.specToJson = r'.specToJson := by
    simpa [toJson] using h
  replace hkind := Kind.name_injective hkind
  replace hmetadata := Metadata.toJson_injective hmetadata
  match r, r' with
  | deployment _, deployment _ => rw [deployment_of_specToJson hmetadata hspec]
  | statefulSet _, statefulSet _ => rw [statefulSet_of_specToJson hmetadata hspec]
  | service _, service _ => rw [service_of_specToJson hmetadata hspec]

/-- A resource and a target never have the same document: only targets have no metadata. -/
theorem toJson_ne_toJson (r : Resource) (t : Target) : r.toJson ≠ t.toJson := by
  simp [toJson, Target.toJson]

end Resource

theorem Target.toJson_injective : Function.Injective Target.toJson := by
  rintro ⟨kind, name, ns, propagation⟩ ⟨kind', name', ns', propagation'⟩ h
  obtain ⟨-, hkind, rfl, rfl, hpropagation⟩ := by simpa [toJson] using h
  obtain rfl := Kind.name_injective hkind
  obtain rfl := Propagation.name_injective hpropagation
  rfl

end Rollout.Kubernetes
