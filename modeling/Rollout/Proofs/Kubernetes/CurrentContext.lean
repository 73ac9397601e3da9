/-
Only the current context of a configuration file matters.

The settings come from three lists.  Each is looked up by name once: the context by what the file
calls current, the cluster and the user by what that context says.  Whatever else the lists hold is
read, and then never looked at.

* `Config.Agree`: two configurations say the same about the current context and what it leads to;
* `Config.resolve_eq_bind`: the look-ups, one after another;
* `Config.Agree.resolve_eq`: configurations that agree give the same settings, or fail alike;
* `ofYamlText_eq_of_agree` draws the conclusion for the texts of files.
-/
import Rollout.Kubernetes.Config
import Rollout.Proofs.Except

namespace Rollout.Kubernetes

/-- Two configurations say the same about the current context, the first context of that name, and
the first cluster and the first user of the names that this context gives.  Where one of them has no
such entry, the other has none either. -/
structure Config.Agree (c c' : Config) : Prop where
  current : c.current = c'.current
  context (name : String) : c.current = some name →
    c.contexts.lookup name = c'.contexts.lookup name
  cluster (name : String) (x : ContextEntry) : c.current = some name →
    c.contexts.lookup name = some x → c.clusters.lookup x.cluster = c'.clusters.lookup x.cluster
  user (name : String) (x : ContextEntry) (user : String) : c.current = some name →
    c.contexts.lookup name = some x → x.user = some user →
      c.users.lookup user = c'.users.lookup user

section Lookup

variable {α : Type} {kind name : String} {entries entries' : List (String × α)}

theorem entryNamed_congr (h : entries.lookup name = entries'.lookup name) :
    entryNamed kind entries name = entryNamed kind entries' name := by
  rw [entryNamed, entryNamed, h]

theorem entryNamed_eq_ok_iff {a : α} :
    entryNamed kind entries name = .ok a ↔ entries.lookup name = some a := by
  unfold entryNamed
  cases entries.lookup name <;> simp

end Lookup

/-! ### One look-up after another -/

/-- The name of the current context. -/
def Config.currentName (c : Config) : Except ClusterError String :=
  match c.current with
  | none | some "" => .error (.config "kubeconfig has no current-context")
  | some name => .ok name

/-- The user of a context, who may have no name and then no credentials. -/
def Config.userOf (c : Config) (x : ContextEntry) : Except ClusterError UserEntry :=
  match x.user with
  | some name => entryNamed "user" c.users name
  | none => .ok {}

/-- The settings that one context, one cluster and one user make. -/
def settings (x : ContextEntry) (cluster : ClusterEntry) (user : UserEntry) :
    Except ClusterError Connection := do
  .ok {
    server := trimServer cluster.server
    ns := x.ns
    certificateAuthority := ← decodeField "certificate-authority-data" cluster.authority
    insecure := cluster.insecure
    token := user.token
    clientCertificate := ← decodeField "client-certificate-data" user.certificate
    clientKey := ← decodeField "client-key-data" user.key }

variable {c c' : Config}

/-- The lists are looked at in this order, and each of them in one place. -/
theorem Config.resolve_eq_bind (c : Config) : c.resolve =
    (c.currentName >>= fun name => entryNamed "context" c.contexts name >>= fun x =>
      entryNamed "cluster" c.clusters x.cluster >>= fun cluster =>
        c.userOf x >>= settings x cluster) := by
  have hfrom (name : String) : (entryNamed "context" c.contexts name >>= fun x =>
      entryNamed "cluster" c.clusters x.cluster >>= fun cluster =>
        match x.user with
        | some user => entryNamed "user" c.users user >>= settings x cluster
        | none => Except.ok {} >>= settings x cluster)
      = (entryNamed "context" c.contexts name >>= fun x =>
        entryNamed "cluster" c.clusters x.cluster >>= fun cluster =>
          c.userOf x >>= settings x cluster) := by
    refine bind_congr_of_ok fun x _ => bind_congr_of_ok fun cluster _ => ?_
    unfold userOf
    cases x.user <;> rfl
  unfold resolve
  split
  · next hcurrent => rw [currentName, hcurrent]; rfl
  · next hcurrent => rw [currentName, hcurrent]; rfl
  · next name hne hcurrent =>
    have hname : c.currentName = .ok name := by
      unfold currentName
      split <;> simp_all
    rw [hname]
    exact hfrom name

theorem Config.current_of_currentName {name : String} (h : c.currentName = .ok name) :
    c.current = some name := by
  unfold currentName at h
  split at h
  · cases h
  · cases h
  · next hcurrent => rw [hcurrent, Except.ok.inj h]

namespace Config.Agree

theorem currentName_eq (h : c.Agree c') : c.currentName = c'.currentName := by
  rw [currentName, currentName, h.current]

theorem userOf_eq (h : c.Agree c') {name : String} {x : ContextEntry}
    (hcurrent : c.current = some name) (hx : c.contexts.lookup name = some x) :
    c.userOf x = c'.userOf x := by
  unfold userOf
  cases huser : x.user with
  | none => rfl
  | some user => exact entryNamed_congr (h.user name x user hcurrent hx huser)

/-- At each step what was found so far is the same, and so is the next name. -/
theorem resolve_eq (h : c.Agree c') : c.resolve = c'.resolve := by
  rw [resolve_eq_bind, resolve_eq_bind, ← h.currentName_eq]
  refine bind_congr_of_ok fun name hname => ?_
  have hcurrent := current_of_currentName hname
  rw [← entryNamed_congr (h.context name hcurrent)]
  refine bind_congr_of_ok fun x hx => ?_
  have hcontext := entryNamed_eq_ok_iff.mp hx
  rw [← entryNamed_congr (h.cluster name x hcurrent hcontext), ← h.userOf_eq hcurrent hcontext]

end Config.Agree

/-! ### Texts -/

namespace Connection

theorem ofYamlText_of_decode {text : String} (h : Yaml.decodeText Config.decoder text = .ok c) :
    ofYamlText text = c.resolve := by
  rw [ofYamlText, h]

/-- **Only the current context matters.**  Two files that can be read and say the same about the
current context, the first context of that name, and the first cluster and the first user that it
names, give the same settings or fail with the same error, whatever else they list, however often
and in whatever order. -/
theorem ofYamlText_eq_of_agree {text text' : String}
    (h : Yaml.decodeText Config.decoder text = .ok c)
    (h' : Yaml.decodeText Config.decoder text' = .ok c') (hagree : c.Agree c') :
    ofYamlText text = ofYamlText text' := by
  rw [ofYamlText_of_decode h, ofYamlText_of_decode h', hagree.resolve_eq]

/-- A file with one context. -/
def lonelyText : String :=
  "current-context: d\ncontexts:\n- name: d\n  context:\n    cluster: c\n    user: u\n" ++
  "clusters:\n- name: c\n  cluster:\n    server: s\nusers:\n- name: u\n"

def lonely : Config where
  current := some "d"
  contexts := [("d", { cluster := "c", user := some "u" })]
  clusters := [("c", { server := "s" })]
  users := [("u", {})]

/-- The same with a second context of the name, and with a user in front whose key is no base64. -/
def crowdedText : String :=
  "users:\n- name: v\n  user:\n    client-key-data: =\n- name: u\n" ++
  "clusters:\n- name: c\n  cluster:\n    server: s\n" ++
  "contexts:\n- name: d\n  context:\n    cluster: c\n    user: u\n" ++
  "- name: d\n  context:\n    cluster: x\ncurrent-context: d\n"

def crowded : Config where
  current := some "d"
  contexts := [("d", { cluster := "c", user := some "u" }), ("d", { cluster := "x" })]
  clusters := [("c", { server := "s" })]
  users := [("v", { key := some "=" }), ("u", {})]

theorem agree_crowded : lonely.Agree crowded := by
  refine ⟨rfl, ?_, ?_, ?_⟩
  · rintro _ ⟨⟩
    rfl
  · rintro _ _ ⟨⟩ ⟨⟩
    rfl
  · rintro _ _ _ ⟨⟩ ⟨⟩ ⟨⟩
    rfl

theorem ofYamlText_eq_of_agree_crowded : ∃ c c' : Config,
    Yaml.decodeText Config.decoder lonelyText = .ok c ∧
      Yaml.decodeText Config.decoder crowdedText = .ok c' ∧ c ≠ c' ∧ c.Agree c' ∧
        ofYamlText lonelyText = ofYamlText crowdedText := by
  have hlonely : Yaml.decodeText Config.decoder lonelyText = .ok lonely :=
    toOption_eq_some_iff.mp (by decide +kernel)
  have hcrowded : Yaml.decodeText Config.decoder crowdedText = .ok crowded :=
    toOption_eq_some_iff.mp (by decide +kernel)
  exact ⟨lonely, crowded, hlonely, hcrowded, by decide, agree_crowded,
    ofYamlText_eq_of_agree hlonely hcrowded agree_crowded⟩

end Connection

end Rollout.Kubernetes
