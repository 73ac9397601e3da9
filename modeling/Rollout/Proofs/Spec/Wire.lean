/-
A specification is read back from its JSON form.

There is one lemma per type, in the order of `Rollout.Spec.Wire`: in every format that reads what
was written, its schema finds the value in the document that `toJson` makes of it.
`Application.ofContent_compact` and `Application.ofJsonText_compact` put them together with the
reading of files and of texts.

Each record is its declared fields, in order, with `none` for those that `toJson` leaves out.
-/
import Rollout.Spec.Load
import Rollout.Proofs.Format
import Rollout.Proofs.Text.Split
import Rollout.Proofs.Text.Utf8

namespace Rollout.Spec

open Json (Value presentFields listField_eq)

section Formats

variable {D F : Type → Type} [Functor F] [Seq F] {f : Format D F}
  {Reads : {α : Type} → D α → Value → α → Prop}
  {FieldsRead : {α : Type} → F α → List String → List (Option Value) → α → Prop}

/-! ### Numbers -/

theorem count_reads (laws : f.Laws Reads FieldsRead) (n : UInt32) :
    Reads (count f) (.int n.toNat) n := by
  have hbound : n.toNat < UInt32.size := n.toNat_lt
  have hexact : n.toNat ≤ Json.Number.maxUnsigned := hbound.le.trans (by decide)
  exact laws.map (laws.natural "u32" hbound hexact) n.ofNat_toNat

theorem portNumber_reads (laws : f.Laws Reads FieldsRead) (n : UInt16) :
    Reads (portNumber f) (.int n.toNat) n := by
  have hbound : n.toNat < UInt16.size := n.toNat_lt
  have hexact : n.toNat ≤ Json.Number.maxUnsigned := hbound.le.trans (by decide)
  exact laws.map (laws.natural "u16" hbound hexact) n.ofNat_toNat

theorem identifier_reads (laws : f.Laws Reads FieldsRead) (n : Int64) :
    Reads (identifier f) (.int n.toInt) n := by
  have hlow : Int64.minValue.toInt ≤ n.toInt := n.minValue_le_toInt
  have hhigh : n.toInt ≤ Int64.maxValue.toInt := n.toInt_le
  have hexact : Json.Number.Exact n.toInt :=
    ⟨le_trans (by decide) hlow, le_trans hhigh (by decide)⟩
  exact laws.map (laws.integer "i64" ⟨hlow, hhigh⟩ hexact) n.ofInt_toInt

/-! ### Records -/

theorem EnvVar.reads (laws : f.Laws Reads FieldsRead) (e : EnvVar) :
    Reads (EnvVar.schema f) e.toJson e :=
  laws.record "EnvVar"
    (laws.seq (laws.mapFields EnvVar.mk (laws.required "name" (laws.text e.name)))
      (laws.required "value" (laws.text e.value)))
    (by decide) rfl

theorem Mount.reads (laws : f.Laws Reads FieldsRead) (m : Mount) :
    Reads (Mount.schema f) m.toJson m :=
  laws.record "VolumeMount"
    (laws.seq (laws.seq (laws.mapFields Mount.mk (laws.required "name" (laws.text m.name)))
      (laws.required "mountPath" (laws.text m.path)))
      (laws.optionalField "subPath" m.subPath laws.text (by simp)))
    (by decide) (by simp [presentFields])

theorem Container.reads (laws : f.Laws Reads FieldsRead) (c : Container) :
    Reads (Container.schema f) c.toJson c :=
  laws.record "Container"
    (laws.seq (laws.seq (laws.mapFields Container.mk (laws.required "image" (laws.text c.image)))
      (laws.field "env" [] (laws.list c.env (EnvVar.reads laws))))
      (laws.listField "volumeMounts" c.mounts (Mount.reads laws)))
    (by decide) (by simp [presentFields, listField_eq])

theorem Protocol.reads (laws : f.Laws Reads FieldsRead) (p : Protocol) :
    Reads (Protocol.schema f) (.text p.name) p := by
  cases p <;> exact laws.variant (by decide)

theorem Port.reads (laws : f.Laws Reads FieldsRead) (p : Port) :
    Reads (Port.schema f) p.toJson p :=
  laws.record "Port"
    (laws.seq (laws.mapFields Port.mk (laws.required "number" (portNumber_reads laws p.number)))
      (laws.optionalField "protocol" p.protocol (Protocol.reads laws) (by simp)))
    (by decide) (by simp [presentFields])

theorem Volume.reads (laws : f.Laws Reads FieldsRead) (v : Volume) :
    Reads (Volume.schema f) v.toJson v :=
  laws.record "Volume"
    (laws.seq (laws.mapFields Volume.mk (laws.required "name" (laws.text v.name)))
      (laws.required "persistentVolumeClaim" (laws.text v.claim)))
    (by decide) rfl

theorem Sharding.reads (laws : f.Laws Reads FieldsRead) (s : Sharding) :
    Reads (Sharding.schema f) s.toJson s :=
  laws.record "ShardSpec"
    (laws.seq (laws.seq (laws.mapFields Sharding.mk
      (laws.required "shards" (count_reads laws s.shards)))
      (laws.optionalField "urlPattern" s.urlPattern laws.text (by simp)))
      (laws.optionalField "fieldPath" s.fieldPath laws.text (by simp)))
    (by decide) (by simp [presentFields])

theorem Service.reads (laws : f.Laws Reads FieldsRead) (s : Service) :
    Reads (Service.schema f) s.toJson s :=
  laws.record "ServiceSpec"
    (laws.seq (laws.seq (laws.seq (laws.seq (laws.seq (laws.mapFields Service.mk
      (laws.required "name" (laws.text s.name)))
      (laws.field "containers" [] (laws.list s.containers (Container.reads laws))))
      (laws.field "ports" [] (laws.list s.ports (Port.reads laws))))
      (laws.field "replicas" 0 (count_reads laws s.replicas)))
      (laws.optionalField "shardSpec" s.sharding (Sharding.reads laws)
        (by simp [Sharding.toJson])))
      (laws.listField "volumes" s.volumes (Volume.reads laws)))
    (by decide) (by simp [presentFields, listField_eq])

theorem Serve.reads (laws : f.Laws Reads FieldsRead) (s : Serve) :
    Reads (Serve.schema f) s.toJson s :=
  laws.record "ServeDirective"
    (laws.seq (laws.mapFields Serve.mk (laws.required "name" (laws.text s.name)))
      (laws.field "public" false (laws.bool s.isPublic)))
    (by decide) rfl

/-- In every format that reads what was written, a specification is read back. -/
theorem Application.reads (laws : f.Laws Reads FieldsRead) (a : Application) :
    Reads (Application.schema f) a.toJson a :=
  laws.record "ApplicationSpec"
    (laws.seq (laws.seq (laws.seq (laws.mapFields Application.mk
      (laws.field "guid" 0 (identifier_reads laws a.guid)))
      (laws.required "name" (laws.text a.name)))
      (laws.optionalField "serve" a.serve (Serve.reads laws) (by simp [Serve.toJson])))
      (laws.field "services" [] (laws.list a.services (Service.reads laws))))
    (by decide) (by simp [presentFields])

end Formats

/-! ### Files and texts -/

theorem Application.schema_reads (a : Application) :
    Json.Reads (Application.schema Json.format) a.toJson a :=
  a.reads Json.format_laws

/-- A file that is not read as YAML may hold the one-line JSON form of a specification. -/
theorem Application.ofContent_compact {path : String} (hpath : isYamlPath path = false)
    (a : Application) : ofContent path (Utf8.encode a.toJson.compact) = .ok a := by
  have hread : ofJsonText a.toJson.compact = .ok a := Json.decodeText_compact a.schema_reads
  simp [ofContent, Utf8.decode?_encode, hpath, hread, Except.mapError]

theorem isYamlPath_appJson : isYamlPath "app.json" = false := by
  have hslash : "app.json".splitOn "/" = ["app.json"] := (Text.splitOn_slash _).trans (by decide)
  have hdot : "app.json".splitOn "." = ["app", "json"] := (Text.splitOn_dot _).trans (by decide)
  simp [isYamlPath, Host.Path.extension?, Host.Path.fileName?, Host.Path.components,
    Host.Path.isAbsolute, hslash, hdot]

/-- **Round trip**: the one-line JSON form of any specification is read as that specification. -/
theorem Application.ofJsonText_compact (a : Application) :
    ofJsonText a.toJson.compact = .ok a :=
  Json.decodeText_compact a.schema_reads

end Rollout.Spec
