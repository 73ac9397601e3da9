/-
The one-line JSON form of a specification means the same as YAML.

* `Application.texts`: all texts of a specification;
* `Application.legible_toJson`: if these can be read on one line, so can the whole document, since
  the names of the fields are short and plain;
* `Application.ofYamlText_compact` draws the conclusion.

Texts are quoted in that form, so that those that look like numbers or like nothing stay texts.
-/
import Rollout.Proofs.Spec.Wire
import Rollout.Proofs.Yaml.Decode

namespace Rollout.Spec

open Json (Value)
open Yaml (LegibleText LegibleKey LegibleValue LegibleItems LegibleFields)

/-! ### Texts -/

def EnvVar.texts (e : EnvVar) : List String :=
  [e.name, e.value]

def Mount.texts (m : Mount) : List String :=
  m.name :: m.path :: m.subPath.toList

def Container.texts (c : Container) : List String :=
  c.image :: (c.env.flatMap EnvVar.texts ++ c.mounts.flatMap Mount.texts)

def Volume.texts (v : Volume) : List String :=
  [v.name, v.claim]

def Sharding.texts (s : Sharding) : List String :=
  s.urlPattern.toList ++ s.fieldPath.toList

def Service.texts (s : Service) : List String :=
  s.name :: (s.containers.flatMap Container.texts ++ s.sharding.toList.flatMap Sharding.texts
    ++ s.volumes.flatMap Volume.texts)

/-- All texts of a specification. -/
def Application.texts (a : Application) : List String :=
  a.name :: (a.serve.toList.map (·.name) ++ a.services.flatMap Service.texts)

/-- The names of all fields. -/
def fieldNames : List String :=
  ["name", "value", "mountPath", "subPath", "image", "env", "volumeMounts", "number", "protocol",
    "persistentVolumeClaim", "shards", "urlPattern", "fieldPath", "containers", "ports",
    "replicas", "shardSpec", "volumes", "public", "guid", "serve", "services"]

theorem legibleKey_fieldNames : ∀ k ∈ fieldNames, LegibleKey k := by
  decide +kernel

/-! ### Documents -/

theorem legibleItems_iff {items : List Value} :
    LegibleItems items ↔ ∀ v ∈ items, LegibleValue v := by
  induction items with
  | nil => simp [LegibleItems]
  | cons v items ih => simp [LegibleItems, ih]

theorem legibleFields_iff {fields : List (String × Value)} :
    LegibleFields fields ↔ ∀ f ∈ fields, LegibleKey f.1 ∧ LegibleValue f.2 := by
  induction fields with
  | nil => simp [LegibleFields]
  | cons f fields ih => simp [LegibleFields, ih, and_assoc]

theorem legibleFields_append {fs gs : List (String × Value)} :
    LegibleFields (fs ++ gs) ↔ LegibleFields fs ∧ LegibleFields gs := by
  simp only [legibleFields_iff, List.forall_mem_append]

theorem legibleFields_optionalField {k : String} {v : Option Value} (hk : LegibleKey k) :
    LegibleFields (Value.optionalField k v) ↔ ∀ w ∈ v, LegibleValue w := by
  cases v <;> simp [Value.optionalField, LegibleFields, hk]

theorem legibleFields_listField {k : String} {items : List Value} (hk : LegibleKey k) :
    LegibleFields (Value.listField k items) ↔ ∀ v ∈ items, LegibleValue v := by
  cases items <;> simp [Value.listField, LegibleFields, LegibleValue, legibleItems_iff, hk]

theorem EnvVar.legible_toJson {e : EnvVar} (h : ∀ t ∈ e.texts, LegibleText t) :
    LegibleValue e.toJson := by
  simp only [texts, List.forall_mem_cons] at h
  simp (disch := decide) [toJson, LegibleValue, LegibleFields, legibleKey_fieldNames, h]

theorem Mount.legible_toJson {m : Mount} (h : ∀ t ∈ m.texts, LegibleText t) :
    LegibleValue m.toJson := by
  simp only [texts, List.forall_mem_cons, Option.mem_toList] at h
  obtain ⟨hname, hpath, hsubPath⟩ := h
  simpa (disch := decide) [toJson, LegibleValue, LegibleFields, legibleKey_fieldNames,
    legibleFields_optionalField, hname, hpath] using hsubPath

theorem Container.legible_toJson {c : Container} (h : ∀ t ∈ c.texts, LegibleText t) :
    LegibleValue c.toJson := by
  simp only [texts, List.forall_mem_cons, List.forall_mem_append, List.forall_mem_flatMap] at h
  obtain ⟨himage, henv, hmounts⟩ := h
  have henv' : ∀ e ∈ c.env, LegibleValue e.toJson := fun e he => EnvVar.legible_toJson (henv e he)
  have hmounts' : ∀ m ∈ c.mounts, LegibleValue m.toJson := fun m hm =>
    Mount.legible_toJson (hmounts m hm)
  simpa (disch := decide) [toJson, LegibleValue, LegibleFields, legibleItems_iff,
    legibleKey_fieldNames, legibleFields_listField, himage] using ⟨henv', hmounts'⟩

theorem Port.legible_toJson (p : Port) : LegibleValue p.toJson := by
  have hname (q : Protocol) : LegibleText q.name := by
    cases q <;> decide +kernel
  simp (disch := decide) [toJson, LegibleValue, LegibleFields, legibleKey_fieldNames,
    legibleFields_optionalField, hname]

theorem Volume.legible_toJson {v : Volume} (h : ∀ t ∈ v.texts, LegibleText t) :
    LegibleValue v.toJson := by
  simp only [texts, List.forall_mem_cons] at h
  simp (disch := decide) [toJson, LegibleValue, LegibleFields, legibleKey_fieldNames, h]

theorem Sharding.legible_toJson {s : Sharding} (h : ∀ t ∈ s.texts, LegibleText t) :
    LegibleValue s.toJson := by
  simp only [texts, List.forall_mem_append, Option.mem_toList] at h
  simpa (disch := decide) [toJson, LegibleValue, LegibleFields, legibleFields_append,
    legibleKey_fieldNames, legibleFields_optionalField] using h

theorem Service.legible_toJson {s : Service} (h : ∀ t ∈ s.texts, LegibleText t) :
    LegibleValue s.toJson := by
  simp only [texts, List.forall_mem_cons, List.forall_mem_append, List.forall_mem_flatMap,
    Option.mem_toList] at h
  obtain ⟨hname, ⟨hcontainers, hsharding⟩, hvolumes⟩ := h
  have hcontainers' : ∀ c ∈ s.containers, LegibleValue c.toJson := fun c hc =>
    Container.legible_toJson (hcontainers c hc)
  have hsharding' : ∀ x ∈ s.sharding, LegibleValue x.toJson := fun x hx =>
    Sharding.legible_toJson (hsharding x hx)
  have hvolumes' : ∀ v ∈ s.volumes, LegibleValue v.toJson := fun v hv =>
    Volume.legible_toJson (hvolumes v hv)
  have hports : ∀ p ∈ s.ports, LegibleValue p.toJson := fun p _ => p.legible_toJson
  simpa (disch := decide) [toJson, LegibleValue, LegibleFields, legibleItems_iff,
    legibleFields_append, legibleKey_fieldNames, legibleFields_optionalField,
    legibleFields_listField, hname]
    using ⟨hcontainers', hports, hsharding', hvolumes'⟩

theorem Serve.legible_toJson {s : Serve} (h : LegibleText s.name) : LegibleValue s.toJson := by
  simp (disch := decide) [toJson, LegibleValue, LegibleFields, legibleKey_fieldNames, h]

/-- A specification whose texts can be read on one line is written on one line that can be read. -/
theorem Application.legible_toJson {a : Application} (h : ∀ t ∈ a.texts, LegibleText t) :
    LegibleValue a.toJson := by
  simp only [texts, List.forall_mem_cons, List.forall_mem_append, List.forall_mem_flatMap,
    List.forall_mem_map, Option.mem_toList] at h
  obtain ⟨hname, hserve, hservices⟩ := h
  have hserve' : ∀ s ∈ a.serve, LegibleValue s.toJson := fun s hs =>
    Serve.legible_toJson (hserve s hs)
  have hservices' : ∀ s ∈ a.services, LegibleValue s.toJson := fun s hs =>
    Service.legible_toJson (hservices s hs)
  simpa (disch := decide) [toJson, LegibleValue, LegibleFields, legibleItems_iff,
    legibleFields_append, legibleKey_fieldNames, legibleFields_optionalField, hname]
    using ⟨hserve', hservices'⟩

/-! ### Agreement -/

/-- **The readers agree**: if every character of a specification may stand in a quoted YAML scalar
on one line, its one-line JSON form is read as YAML and as JSON alike: as that specification. -/
theorem Application.ofYamlText_compact (a : Application)
    (h : ∀ t ∈ a.texts, ∀ c ∈ t.toList, Yaml.Legible c) :
    ofYamlText a.toJson.compact = .ok a ∧ ofJsonText a.toJson.compact = .ok a :=
  ⟨Yaml.decodeText_compact (a.legible_toJson h) (a.reads Yaml.format_laws),
    Json.decodeText_compact a.schema_reads⟩

/-- Texts that are something else when they are not quoted, and the least identifier. -/
def lookalikes : Application where
  guid := Int64.minValue
  name := "null"
  serve := some { name := "true" }
  services := [
    { name := "0x1F"
      containers := [
        { image := "~", env := [⟨"say \"hi\"", "a: b # c\n\t\x01\\"⟩, ⟨"", "\u00a0é🦀"⟩],
          mounts := [⟨"-", "/", some "null"⟩] }]
      ports := [{ number := 65535, protocol := some .udp }, { number := 0 }]
      sharding := some { shards := 0, urlPattern := some "[,]" } }]

theorem Application.ofYamlText_compact_lookalikes :
    (∀ t ∈ lookalikes.texts, ∀ c ∈ t.toList, Yaml.Legible c) ∧
      ofYamlText lookalikes.toJson.compact = .ok lookalikes ∧
      ofJsonText lookalikes.toJson.compact = .ok lookalikes := by
  have hlegible : ∀ t ∈ lookalikes.texts, LegibleText t := by decide +kernel
  exact ⟨hlegible, lookalikes.ofYamlText_compact hlegible⟩

end Rollout.Spec
