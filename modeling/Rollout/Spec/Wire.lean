/-
The form of a specification in data formats.

* `Application.toJson` writes one: fields in declaration order, absent options and empty volume
  lists left out;
* `Application.schema` says how one is read, from whatever format: only names, images, shard counts
  and port numbers are required, unknown names are passed over.
-/
import Rollout.Spec.Basic
import Rollout.Json.Value
import Rollout.Json.Decode
import Rollout.Yaml.Decode

namespace Rollout.Spec

open Json (Value)

/-! ### Writing -/

def EnvVar.toJson (e : EnvVar) : Value :=
  .object [("name", .text e.name), ("value", .text e.value)]

def Mount.toJson (m : Mount) : Value :=
  .object ([("name", .text m.name), ("mountPath", .text m.path)]
    ++ Value.optionalField "subPath" (m.subPath.map .text))

def Container.toJson (c : Container) : Value :=
  .object ([("image", .text c.image), ("env", .list (c.env.map EnvVar.toJson))]
    ++ Value.listField "volumeMounts" (c.mounts.map Mount.toJson))

/-- The name of a protocol. -/
def Protocol.name : Protocol → String
  | tcp => "TCP"
  | udp => "UDP"

def Port.toJson (p : Port) : Value :=
  .object ([("number", .int p.number.toNat)]
    ++ Value.optionalField "protocol" (p.protocol.map (.text ·.name)))

def Volume.toJson (v : Volume) : Value :=
  .object [("name", .text v.name), ("persistentVolumeClaim", .text v.claim)]

def Sharding.toJson (s : Sharding) : Value :=
  .object ([("shards", .int s.shards.toNat)]
    ++ Value.optionalField "urlPattern" (s.urlPattern.map .text)
    ++ Value.optionalField "fieldPath" (s.fieldPath.map .text))

def Service.toJson (s : Service) : Value :=
  .object ([("name", .text s.name), ("containers", .list (s.containers.map Container.toJson)),
      ("ports", .list (s.ports.map Port.toJson)), ("replicas", .int s.replicas.toNat)]
    ++ Value.optionalField "shardSpec" (s.sharding.map Sharding.toJson)
    ++ Value.listField "volumes" (s.volumes.map Volume.toJson))

def Serve.toJson (s : Serve) : Value :=
  .object [("name", .text s.name), ("public", .bool s.isPublic)]

def Application.toJson (a : Application) : Value :=
  .object ([("guid", .int a.guid.toInt), ("name", .text a.name)]
    ++ Value.optionalField "serve" (a.serve.map Serve.toJson)
    ++ [("services", .list (a.services.map Service.toJson))])

/-! ### Reading -/

variable {D F : Type → Type} [Functor F] [Seq F]

/-- A count of 32 bits. -/
def count (f : Format D F) : D UInt32 :=
  f.map UInt32.ofNat (f.natural UInt32.size "u32")

/-- A port number. -/
def portNumber (f : Format D F) : D UInt16 :=
  f.map UInt16.ofNat (f.natural UInt16.size "u16")

/-- An identifier of 64 bits. -/
def identifier (f : Format D F) : D Int64 :=
  f.map Int64.ofInt (f.integer Int64.minValue.toInt Int64.maxValue.toInt "i64")

def EnvVar.schema (f : Format D F) : D EnvVar :=
  f.record "EnvVar" (EnvVar.mk <$> f.required "name" f.text <*> f.required "value" f.text)

def Mount.schema (f : Format D F) : D Mount :=
  f.record "VolumeMount" (Mount.mk <$> f.required "name" f.text
    <*> f.required "mountPath" f.text
    <*> f.field "subPath" (f.optional f.text) none)

def Container.schema (f : Format D F) : D Container :=
  f.record "Container" (Container.mk <$> f.required "image" f.text
    <*> f.field "env" (f.list (EnvVar.schema f)) []
    <*> f.field "volumeMounts" (f.list (Mount.schema f)) [])

def Protocol.schema (f : Format D F) : D Protocol :=
  f.variant [("TCP", .tcp), ("UDP", .udp)]

def Port.schema (f : Format D F) : D Port :=
  f.record "Port" (Port.mk <$> f.required "number" (portNumber f)
    <*> f.field "protocol" (f.optional (Protocol.schema f)) none)

def Volume.schema (f : Format D F) : D Volume :=
  f.record "Volume" (Volume.mk <$> f.required "name" f.text
    <*> f.required "persistentVolumeClaim" f.text)

def Sharding.schema (f : Format D F) : D Sharding :=
  f.record "ShardSpec" (Sharding.mk <$> f.required "shards" (count f)
    <*> f.field "urlPattern" (f.optional f.text) none
    <*> f.field "fieldPath" (f.optional f.text) none)

def Service.schema (f : Format D F) : D Service :=
  f.record "ServiceSpec" (Service.mk <$> f.required "name" f.text
    <*> f.field "containers" (f.list (Container.schema f)) []
    <*> f.field "ports" (f.list (Port.schema f)) []
    <*> f.field "replicas" (count f) 0
    <*> f.field "shardSpec" (f.optional (Sharding.schema f)) none
    <*> f.field "volumes" (f.list (Volume.schema f)) [])

def Serve.schema (f : Format D F) : D Serve :=
  f.record "ServeDirective" (Serve.mk <$> f.required "name" f.text
    <*> f.field "public" f.bool false)

def Application.schema (f : Format D F) : D Application :=
  f.record "ApplicationSpec" (Application.mk <$> f.field "guid" (identifier f) 0
    <*> f.required "name" f.text
    <*> f.field "serve" (f.optional (Serve.schema f)) none
    <*> f.field "services" (f.list (Service.schema f)) [])

/-- Reads a specification from a JSON text. -/
def Application.ofJsonText (s : String) : Except Json.Fault Application :=
  Json.decodeText (schema Json.format) s

/-- Reads a specification from a YAML text. -/
def Application.ofYamlText (s : String) : Except Yaml.Error Application :=
  Yaml.decodeText (schema Yaml.format) s

end Rollout.Spec
