/-
Which JSON texts are specifications, and of what.

`Application.Conforms` and the predicates before it, one for each type, are the wire schema without
any reading order: a document conforms to it with a value when what stands in the places of its
fields does.  `Application.ofJsonText_eq_ok_iff` says that exactly the texts of conforming documents
are read, and that the value is the one they conform with.

The lemmas `schema_decides` go through the types in the order of `Rollout.Spec.Wire`.
-/
import Rollout.Spec.Wire
import Rollout.Proofs.Json.Record

namespace Rollout.Spec

open Json (Tree Decides Applied Single symbols)
open Json.Tree
open Json.Fields.Decides
open Json.Applied (first also)

/-! ### The wire schema -/

/-- A count of 32 bits. -/
def IsCount (t : Tree) (n : UInt32) : Prop :=
  IsInteger 0 4294967295 t n.toNat

/-- A port number. -/
def IsPortNumber (t : Tree) (n : UInt16) : Prop :=
  IsInteger 0 65535 t n.toNat

/-- An identifier of 64 bits with a sign. -/
def IsIdentifier (t : Tree) (n : Int64) : Prop :=
  IsInteger (-9223372036854775808) 9223372036854775807 t n.toInt

def EnvVar.Conforms (t : Tree) (e : EnvVar) : Prop :=
  ∃ name value, t.HasFields ["name", "value"] [name, value]
    ∧ Required IsText name e.name
    ∧ Required IsText value e.value

def Mount.Conforms (t : Tree) (m : Mount) : Prop :=
  ∃ name path subPath, t.HasFields ["name", "mountPath", "subPath"] [name, path, subPath]
    ∧ Required IsText name m.name
    ∧ Required IsText path m.path
    ∧ Defaulted none (IsNullable IsText) subPath m.subPath

def Container.Conforms (t : Tree) (c : Container) : Prop :=
  ∃ image env mounts, t.HasFields ["image", "env", "volumeMounts"] [image, env, mounts]
    ∧ Required IsText image c.image
    ∧ Defaulted [] (IsList EnvVar.Conforms) env c.env
    ∧ Defaulted [] (IsList Mount.Conforms) mounts c.mounts

def Protocol.Conforms (t : Tree) : Protocol → Prop
  | .tcp => t.IsVariant "TCP"
  | .udp => t.IsVariant "UDP"

def Port.Conforms (t : Tree) (p : Port) : Prop :=
  ∃ number protocol, t.HasFields ["number", "protocol"] [number, protocol]
    ∧ Required IsPortNumber number p.number
    ∧ Defaulted none (IsNullable Protocol.Conforms) protocol p.protocol

def Volume.Conforms (t : Tree) (v : Volume) : Prop :=
  ∃ name claim, t.HasFields ["name", "persistentVolumeClaim"] [name, claim]
    ∧ Required IsText name v.name
    ∧ Required IsText claim v.claim

def Sharding.Conforms (t : Tree) (s : Sharding) : Prop :=
  ∃ shards urlPattern fieldPath,
    t.HasFields ["shards", "urlPattern", "fieldPath"] [shards, urlPattern, fieldPath]
    ∧ Required IsCount shards s.shards
    ∧ Defaulted none (IsNullable IsText) urlPattern s.urlPattern
    ∧ Defaulted none (IsNullable IsText) fieldPath s.fieldPath

def Service.Conforms (t : Tree) (s : Service) : Prop :=
  ∃ name containers ports replicas sharding volumes,
    t.HasFields ["name", "containers", "ports", "replicas", "shardSpec", "volumes"]
      [name, containers, ports, replicas, sharding, volumes]
    ∧ Required IsText name s.name
    ∧ Defaulted [] (IsList Container.Conforms) containers s.containers
    ∧ Defaulted [] (IsList Port.Conforms) ports s.ports
    ∧ Defaulted 0 IsCount replicas s.replicas
    ∧ Defaulted none (IsNullable Sharding.Conforms) sharding s.sharding
    ∧ Defaulted [] (IsList Volume.Conforms) volumes s.volumes

def Serve.Conforms (t : Tree) (s : Serve) : Prop :=
  ∃ name isPublic, t.HasFields ["name", "public"] [name, isPublic]
    ∧ Required IsText name s.name
    ∧ Defaulted false IsBool isPublic s.isPublic

def Application.Conforms (t : Tree) (a : Application) : Prop :=
  ∃ guid name serve services,
    t.HasFields ["guid", "name", "serve", "services"] [guid, name, serve, services]
    ∧ Defaulted 0 IsIdentifier guid a.guid
    ∧ Required IsText name a.name
    ∧ Defaulted none (IsNullable Serve.Conforms) serve a.serve
    ∧ Defaulted [] (IsList Service.Conforms) services a.services

/-! ### Numbers -/

theorem count_decides : Decides (count Json.format) IsCount :=
  ((Decides.natural "u32" (by decide)).map UInt32.ofNat).congr fun t n => by
    constructor
    · rintro ⟨k, h, rfl⟩
      obtain ⟨_, _, _, _, hk⟩ := id h
      have hk' : (UInt32.ofNat k).toNat = k := by
        rw [UInt32.toNat_ofNat', Nat.mod_eq_of_lt]
        simp [UInt32.size] at hk
        omega
      rwa [IsCount, hk']
    · intro h
      exact ⟨n.toNat, h, n.ofNat_toNat⟩

theorem portNumber_decides : Decides (portNumber Json.format) IsPortNumber :=
  ((Decides.natural "u16" (by decide)).map UInt16.ofNat).congr fun t n => by
    constructor
    · rintro ⟨k, h, rfl⟩
      obtain ⟨_, _, _, _, hk⟩ := id h
      have hk' : (UInt16.ofNat k).toNat = k := by
        rw [UInt16.toNat_ofNat', Nat.mod_eq_of_lt]
        simp [UInt16.size] at hk
        omega
      rwa [IsPortNumber, hk']
    · intro h
      exact ⟨n.toNat, h, n.ofNat_toNat⟩

theorem identifier_decides : Decides (identifier Json.format) IsIdentifier :=
  ((Decides.integer "i64" (by decide) (by decide)).map Int64.ofInt).congr fun t n => by
    constructor
    · rintro ⟨i, h, rfl⟩
      obtain ⟨_, _, _, hlow, hhigh⟩ := id h
      have hi : (Int64.ofInt i).toInt = i :=
        Int64.toInt_ofInt_of_le hlow (lt_of_le_of_lt hhigh (by decide))
      rwa [IsIdentifier, hi]
    · intro h
      exact ⟨n.toInt, h, n.ofInt_toInt⟩

/-! ### Records -/

/-- No record is `null`. -/
theorem not_hasFields_null {names : List String} {vs : List (Option Tree)} :
    ¬ Tree.null.HasFields names vs := by
  intro h
  cases h

theorem EnvVar.schema_decides : Decides (EnvVar.schema Json.format) EnvVar.Conforms :=
  .record "EnvVar"
    (seq (map (required "name" .text) EnvVar.mk)
      (required "value" .text))
    (by decide) fun t e => by
      constructor
      · rintro ⟨name, value, h, hname, hvalue⟩
        exact ⟨_, h, also (first hname) hvalue⟩
      · rintro ⟨_, h, ⟨⟨⟨hname⟩⟩, ⟨hvalue⟩⟩⟩
        exact ⟨_, _, h, hname, hvalue⟩

theorem Mount.schema_decides : Decides (Mount.schema Json.format) Mount.Conforms :=
  .record "VolumeMount"
    (seq (seq (map (required "name" .text) Mount.mk)
      (required "mountPath" .text))
      (field "subPath" none (.optional .text (by simp [IsText]))))
    (by decide) fun t m => by
      constructor
      · rintro ⟨name, path, subPath, h, hname, hpath, hsubPath⟩
        exact ⟨_, h, also (also (first hname) hpath) hsubPath⟩
      · rintro ⟨_, h, ⟨⟨⟨⟨hname⟩⟩, ⟨hpath⟩⟩, ⟨hsubPath⟩⟩⟩
        exact ⟨_, _, _, h, hname, hpath, hsubPath⟩

theorem Container.schema_decides : Decides (Container.schema Json.format) Container.Conforms :=
  .record "Container"
    (seq (seq (map (required "image" .text) Container.mk)
      (field "env" [] (.list EnvVar.schema_decides)))
      (field "volumeMounts" [] (.list Mount.schema_decides)))
    (by decide) fun t c => by
      constructor
      · rintro ⟨image, env, mounts, h, himage, henv, hmounts⟩
        exact ⟨_, h, also (also (first himage) henv) hmounts⟩
      · rintro ⟨_, h, ⟨⟨⟨⟨himage⟩⟩, ⟨henv⟩⟩, ⟨hmounts⟩⟩⟩
        exact ⟨_, _, _, h, himage, henv, hmounts⟩

theorem Protocol.schema_decides : Decides (Protocol.schema Json.format) Protocol.Conforms :=
  Decides.variant.congr fun t p => by
    constructor
    · rintro ⟨name, hname, h⟩
      simp only [List.lookup_cons, List.lookup_nil] at hname
      split at hname
      · rename_i htcp
        obtain rfl := beq_iff_eq.mp htcp
        cases hname
        exact h
      · split at hname
        · rename_i hudp
          obtain rfl := beq_iff_eq.mp hudp
          cases hname
          exact h
        · nomatch hname
    · intro h
      cases p with
      | tcp => exact ⟨"TCP", rfl, h⟩
      | udp => exact ⟨"UDP", rfl, h⟩

theorem Protocol.not_conforms_null (p : Protocol) : ¬ Protocol.Conforms .null p := by
  cases p <;> simp [Conforms, IsVariant]

theorem Port.schema_decides : Decides (Port.schema Json.format) Port.Conforms :=
  .record "Port"
    (seq (map (required "number" portNumber_decides) Port.mk)
      (field "protocol" none (.optional Protocol.schema_decides Protocol.not_conforms_null)))
    (by decide) fun t p => by
      constructor
      · rintro ⟨number, protocol, h, hnumber, hprotocol⟩
        exact ⟨_, h, also (first hnumber) hprotocol⟩
      · rintro ⟨_, h, ⟨⟨⟨hnumber⟩⟩, ⟨hprotocol⟩⟩⟩
        exact ⟨_, _, h, hnumber, hprotocol⟩

theorem Volume.schema_decides : Decides (Volume.schema Json.format) Volume.Conforms :=
  .record "Volume"
    (seq (map (required "name" .text) Volume.mk)
      (required "persistentVolumeClaim" .text))
    (by decide) fun t v => by
      constructor
      · rintro ⟨name, claim, h, hname, hclaim⟩
        exact ⟨_, h, also (first hname) hclaim⟩
      · rintro ⟨_, h, ⟨⟨⟨hname⟩⟩, ⟨hclaim⟩⟩⟩
        exact ⟨_, _, h, hname, hclaim⟩

theorem Sharding.schema_decides : Decides (Sharding.schema Json.format) Sharding.Conforms :=
  .record "ShardSpec"
    (seq (seq (map (required "shards" count_decides) Sharding.mk)
      (field "urlPattern" none (.optional .text (by simp [IsText]))))
      (field "fieldPath" none (.optional .text (by simp [IsText]))))
    (by decide) fun t s => by
      constructor
      · rintro ⟨shards, urlPattern, fieldPath, h, hshards, hurlPattern, hfieldPath⟩
        exact ⟨_, h, also (also (first hshards) hurlPattern) hfieldPath⟩
      · rintro ⟨_, h, ⟨⟨⟨⟨hshards⟩⟩, ⟨hurlPattern⟩⟩, ⟨hfieldPath⟩⟩⟩
        exact ⟨_, _, _, h, hshards, hurlPattern, hfieldPath⟩

theorem Sharding.not_conforms_null (s : Sharding) : ¬ Sharding.Conforms .null s :=
  fun ⟨_, _, _, h, _⟩ => not_hasFields_null h

theorem Service.schema_decides : Decides (Service.schema Json.format) Service.Conforms :=
  .record "ServiceSpec"
    (seq (seq (seq (seq (seq (map (required "name" .text) Service.mk)
      (field "containers" [] (.list Container.schema_decides)))
      (field "ports" [] (.list Port.schema_decides)))
      (field "replicas" 0 count_decides))
      (field "shardSpec" none (.optional Sharding.schema_decides Sharding.not_conforms_null)))
      (field "volumes" [] (.list Volume.schema_decides)))
    (by decide) fun t s => by
      constructor
      · rintro ⟨name, containers, ports, replicas, sharding, volumes, h, hname, hcontainers, hports,
          hreplicas, hsharding, hvolumes⟩
        exact ⟨_, h, also (also (also (also (also (first hname) hcontainers) hports) hreplicas)
          hsharding) hvolumes⟩
      · rintro ⟨_, h, ⟨⟨⟨⟨⟨⟨⟨hname⟩⟩, ⟨hcontainers⟩⟩, ⟨hports⟩⟩, ⟨hreplicas⟩⟩, ⟨hsharding⟩⟩,
          ⟨hvolumes⟩⟩⟩
        exact ⟨_, _, _, _, _, _, h, hname, hcontainers, hports, hreplicas, hsharding, hvolumes⟩

theorem Serve.schema_decides : Decides (Serve.schema Json.format) Serve.Conforms :=
  .record "ServeDirective"
    (seq (map (required "name" .text) Serve.mk)
      (field "public" false .bool))
    (by decide) fun t s => by
      constructor
      · rintro ⟨name, isPublic, h, hname, hpublic⟩
        exact ⟨_, h, also (first hname) hpublic⟩
      · rintro ⟨_, h, ⟨⟨⟨hname⟩⟩, ⟨hpublic⟩⟩⟩
        exact ⟨_, _, h, hname, hpublic⟩

theorem Serve.not_conforms_null (s : Serve) : ¬ Serve.Conforms .null s :=
  fun ⟨_, _, h, _⟩ => not_hasFields_null h

theorem Application.schema_decides :
    Decides (Application.schema Json.format) Application.Conforms :=
  .record "ApplicationSpec"
    (seq (seq (seq (map (field "guid" 0 identifier_decides) Application.mk)
      (required "name" .text))
      (field "serve" none (.optional Serve.schema_decides Serve.not_conforms_null)))
      (field "services" [] (.list Service.schema_decides)))
    (by decide) fun t a => by
      constructor
      · rintro ⟨guid, name, serve, services, h, hguid, hname, hserve, hservices⟩
        exact ⟨_, h, also (also (also (first hguid) hname) hserve) hservices⟩
      · rintro ⟨_, h, ⟨⟨⟨⟨⟨hguid⟩⟩, ⟨hname⟩⟩, ⟨hserve⟩⟩, ⟨hservices⟩⟩⟩
        exact ⟨_, _, _, _, h, hguid, hname, hserve, hservices⟩

/-- **The wire schema**: exactly the texts of documents that conform to it are read, and each gives
the value it conforms with. -/
theorem Application.ofJsonText_eq_ok_iff (s : String) (a : Application) :
    ofJsonText s = .ok a ↔ ∃ t : Tree, t.Document (symbols s) ∧ Application.Conforms t a :=
  Json.decodeText_decides Application.schema_decides

end Rollout.Spec
