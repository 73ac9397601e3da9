/-
What the calls of a client do to the registry behind its base.

`Store.serve` puts the two ends together: the request that a call sends, the answer of the registry,
and what the answer means for the call (`Store.serve_fst`).

* `AtRoot.exists_request`: the request of a call asks for what the call means when its name is
  addressable, and for nothing about that name otherwise;
* `Store.serve_get`, `Store.serve_put`, `Store.serve_delete_of_some` and
  `Store.serve_delete_of_none`: what comes of the calls on an addressable name;
* `Store.get?_serve_of_not_addressable`: what comes of the calls on any other name;
* `addressable_iff_actsOn`: the calls on a name act on the entry of that name and no other when the
  name is addressable, and only then.
-/
import Mathlib.Logic.Function.Basic
import Rollout.Proofs.Registry.Address
import Rollout.Proofs.Registry.Store
import Rollout.Proofs.Spec.Wire

namespace Rollout.Registry

open Function (update)
open Http (Request Response)
open Spec (Application)

/-! ### What calls ask for -/

/-- The name whose entry something asked for is about. -/
def Ask.name? : Ask → Option String
  | get name | put name | delete name => some name
  | list => none

/-- What a call means to ask for. -/
def Call.ask : Call → Ask
  | get name => .get name
  | put a => .put a.name
  | delete name => .delete name
  | list => .list

/-- A request asks for something about the name that its path leads to. -/
theorem name?_of_ask? {r : Request} {x : Ask} (h : ask? r = some x) :
    Route.name? r.path = x.name? := by
  unfold ask? at h
  unfold Route.name?
  split at h
  · next hroute =>
    rw [hroute]
    split at h
    · obtain rfl := Option.some_inj.mp h
      rfl
    · simp at h
  · next segment hroute =>
    rw [hroute]
    obtain ⟨name, hname, h⟩ := Option.bind_eq_some_iff.mp h
    dsimp only
    rw [hname]
    split at h
    · obtain rfl := Option.some_inj.mp h
      rfl
    split at h
    · obtain rfl := Option.some_inj.mp h
      rfl
    split at h
    · obtain rfl := Option.some_inj.mp h
      rfl
    · simp at h
  · simp at h
  · simp at h

/-- A request with the method of a call and a path that leads to its name asks for what the call
means. -/
theorem ask?_of_name? {r : Request} {c : Call} {name : String} (hc : c.ask.name? = some name)
    (hmethod : r.method = c.method) (hpath : Route.name? r.path = some name) :
    ask? r = some c.ask := by
  obtain ⟨x, hroute, hx⟩ := Route.name?_eq_some_iff.mp hpath
  cases c with
  | list => exact absurd hc nofun
  | get | put | delete =>
    obtain rfl := Option.some_inj.mp hc
    simp [ask?, hroute, hx, hmethod, Call.method, Call.ask]

/-- **Requests.**  The request of a call asks for what the call means when the name is addressable;
for any other name it asks for nothing about that name. -/
theorem AtRoot.exists_request {base : String} (hbase : AtRoot base) {c : Call} {name : String}
    (hc : c.ask.name? = some name) : ∃ r, c.request base = .ok r ∧
      (Addressable name → ask? r = some c.ask) ∧
      (¬ Addressable name → ∀ x, ask? r = some x → x.name? ≠ some name) := by
  obtain ⟨u, hu, hname⟩ := hbase.name?_iff name
  have hurl : Http.Url.parse? (trimBase base ++ c.path) = some u := by
    cases c with
    | list => exact absurd hc nofun
    | get | put | delete =>
      obtain rfl := Option.some_inj.mp hc
      exact hu
  obtain ⟨r, hr, hmethod, hpath⟩ : ∃ r, c.request base = .ok r ∧ r.method = c.method ∧
      r.path = u.path := by
    rw [Call.request, hurl]
    cases c <;> exact ⟨_, rfl, rfl, rfl⟩
  rw [← hpath] at hname
  refine ⟨r, hr, fun h => ask?_of_name? hc hmethod (hname.mpr h), fun h x hx hxname => ?_⟩
  exact h (hname.mp (by rw [name?_of_ask? hx, hxname]))

theorem Call.method_of_request {base : String} {c : Call} {r : Request}
    (h : c.request base = .ok r) : r.method = c.method := by
  rw [request] at h
  split at h
  · cases h
  · obtain rfl := Except.ok.inj h
    cases c <;> rfl

/-! ### Calls to a registry -/

/-- A specification in a response is read back. -/
theorem decodeBody_json (status : Nat) (a : Application) :
    decodeBody (Application.schema Json.format) (.json status a.toJson) = .ok a := by
  have hbody := Json.decodeBytes_compact a.schema_reads
  rw [decodeBody, Response.json, hbody]
  rfl

/-- The body of a `put` fits into a request to the registry. -/
def Fits (a : Application) : Prop := (Utf8.encode a.toJson.compact).length ≤ maxBody

instance (a : Application) : Decidable (Fits a) :=
  inferInstanceAs (Decidable ((Utf8.encode a.toJson.compact).length ≤ maxBody))

/-- A specification in the request of a `put` is read back. -/
theorem readBody_request {base : String} {a : Application} {r : Request}
    (hr : (Call.put a).request base = .ok r) (hfits : Fits a) : readBody r = .ok a := by
  rw [Call.request] at hr
  split at hr
  · exact absurd hr nofun
  · obtain rfl := Except.ok.inj hr
    have htype : Http.isJsonType Http.jsonType = true := by decide
    have hbody := Json.decodeBytes_compact a.schema_reads
    simp only [readBody, Request.withJson, Request.to, List.nil_append, List.lookup_cons,
      beq_self_eq_true, Option.map_some, Option.getD_some, htype, Bool.not_true,
      Bool.false_eq_true, if_false, if_neg (Nat.not_lt.mpr hfits), hbody]
    rfl

namespace Store

/-- A call to a registry: what the client gets, and what the registry holds then. -/
def serve (s : Store) (base : String) (c : Call) : Except ClientError c.Result × Store :=
  match c.request base with
  | .error e => (.error e, s)
  | .ok r => (c.answer (s.respond r).1, (s.respond r).2)

/-- The client gets what it gets over a transport that leads to the registry. -/
theorem serve_fst (s : Store) (base : String) (c : Call) :
    (s.serve base c).1 = c.over (fun r => .ok (s.respond r).1) base := by
  rw [serve, Call.over]
  cases c.request base <;> rfl

/-- A call whose request asks for what it means is granted that. -/
theorem serve_of_ask {s : Store} {base : String} {c : Call} {r : Request}
    (hr : c.request base = .ok r) (hask : ask? r = some c.ask) :
    s.serve base c = (c.answer (s.grant r c.ask).1, (s.grant r c.ask).2) := by
  simp only [serve, hr, respond_of_ask hask]

/-- What is fetched under a name is for a client just what the registry has there. -/
theorem answer_fetch (s : Store) (wanted name : String) :
    (Call.get wanted).answer (s.fetch name) = .ok (s.get? name) := by
  rw [fetch]
  cases s.get? name with
  | none => rfl
  | some a =>
    have hstatus : ((Response.json 200 a.toJson).status == 404) = false := rfl
    have hsuccess : (Response.json 200 a.toJson).isSuccess = true := rfl
    simp only [Call.answer, hstatus, hsuccess, decodeBody_json]
    rfl

section Addressable

variable {base name : String} (hbase : AtRoot base) (hname : Addressable name) (s : Store)

include hbase hname

/-- A `get` finds the specification of the name, if there is one, and changes nothing. -/
theorem serve_get : s.serve base (.get name) = (.ok (s.get? name), s) := by
  obtain ⟨r, hr, hask, -⟩ := hbase.exists_request (c := .get name) rfl
  rw [serve_of_ask hr (hask hname), Call.ask, grant, answer_fetch]

/-- A `put` stores a valid specification that fits into a body. -/
theorem serve_put {a : Application} (ha : a.name = name) (hvalid : a.validate = .ok ())
    (hfits : Fits a) : s.serve base (.put a) = (.ok a, s.insert a) := by
  subst ha
  obtain ⟨r, hr, hask, -⟩ := hbase.exists_request (c := .put a) rfl
  rw [serve_of_ask hr (hask hname), Call.ask, grant,
    put_of_storable ⟨readBody_request hr hfits, rfl, hvalid⟩]
  dsimp only
  generalize hstatus : (if s.contains a.name then 200 else 201) = status
  have hsuccess : (Response.json status a.toJson).isSuccess = true := by
    rw [← hstatus]
    split <;> rfl
  rw [Call.answer, if_pos hsuccess, decodeBody_json]

/-- A `delete` removes the specification of the name. -/
theorem serve_delete_of_some {a : Application} (ha : s.get? name = some a) :
    s.serve base (.delete name) = (.ok (), s.erase name) := by
  obtain ⟨r, hr, hask, -⟩ := hbase.exists_request (c := .delete name) rfl
  rw [serve_of_ask hr (hask hname), Call.ask, grant, remove, contains_eq, ha]
  rfl

/-- A `delete` fails when there is no specification of the name. -/
theorem serve_delete_of_none (ha : s.get? name = none) :
    s.serve base (.delete name) = (.error (failureOf (notFound name).response), s) := by
  obtain ⟨r, hr, hask, -⟩ := hbase.exists_request (c := .delete name) rfl
  rw [serve_of_ask hr (hask hname), Call.ask, grant, remove, contains_eq, ha]
  rfl

end Addressable

/-- A request that asks for nothing about a name leaves the entry of the name as it is. -/
theorem get?_respond {s : Store} {r : Request} {name : String}
    (h : ∀ x, ask? r = some x → x.name? ≠ some name) : (s.respond r).2.get? name = s.get? name := by
  cases hask : ask? r with
  | none => rw [respond_of_no_ask hask]
  | some x =>
    have hx := h x hask
    rw [respond_of_ask hask]
    cases x with
    | list => rfl
    | get other => rfl
    | put other =>
      have hne : name ≠ other := fun he => hx (congrArg some he.symm)
      -- what is stored goes by the name that was asked for
      rw [grant]
      by_cases hs : ∃ a, Storable other r a
      · obtain ⟨a, ha⟩ := hs
        have haname : a.name = other := ha.2.1
        rw [put_of_storable ha, get?_insert, haname, if_neg hne]
      · rw [(put_of_not_storable hs).2]
    | delete other =>
      have hne : name ≠ other := fun he => hx (congrArg some he.symm)
      rw [grant, remove]
      split
      · rw [get?_erase, if_neg hne]
      · rfl

/-- A call on a name that is not addressable leaves the entry of the name as it is. -/
theorem get?_serve_of_not_addressable {base name : String} (hbase : AtRoot base)
    (hname : ¬ Addressable name) (s : Store) {c : Call} (hc : c.ask.name? = some name) :
    (s.serve base c).2.get? name = s.get? name := by
  obtain ⟨r, hr, -, hask⟩ := hbase.exists_request hc
  simp only [serve, hr]
  exact get?_respond (hask hname)

end Store

/-! ### Entries -/

/-- The calls on a name act on the entry of that name in a registry, and on no other. -/
structure ActsOn (base name : String) (s : Store) : Prop where
  /-- A `get` finds just what there is. -/
  get : s.serve base (.get name) = (.ok (s.get? name), s)
  /-- A `put` of a valid specification that fits into a request succeeds and stores it. -/
  put : ∀ a : Application, a.name = name → a.validate = .ok () → Fits a →
    ∃ s', s.serve base (.put a) = (.ok a, s') ∧ s'.get? = update s.get? name (some a)
  /-- A `delete` succeeds when there is something to remove. -/
  delete : ∀ a, s.get? name = some a →
    ∃ s', s.serve base (.delete name) = (.ok (), s') ∧ s'.get? = update s.get? name none
  /-- A `delete` fails when there is nothing. -/
  deleteNone : s.get? name = none → ∃ e, s.serve base (.delete name) = (.error e, s)

theorem Addressable.actsOn {base name : String} (hname : Addressable name) (hbase : AtRoot base)
    (s : Store) : ActsOn base name s where
  get := s.serve_get hbase hname
  put a ha hvalid hfits := by
    refine ⟨s.insert a, s.serve_put hbase hname ha hvalid hfits, funext fun other => ?_⟩
    rw [Store.get?_insert, Function.update_apply, ha]
  delete a ha := by
    refine ⟨s.erase name, s.serve_delete_of_some hbase hname ha, funext fun other => ?_⟩
    rw [Store.get?_erase, Function.update_apply]
  deleteNone ha := ⟨_, s.serve_delete_of_none hbase hname ha⟩

/-- **Calls and entries.**  The calls on a name act on its entry and no other, whatever the registry
holds, when the name is addressable, and only then: a call on any other name cannot remove its
entry. -/
theorem addressable_iff_actsOn {base : String} (hbase : AtRoot base) (name : String) :
    Addressable name ↔ ∀ s : Store, ActsOn base name s := by
  refine ⟨fun hname => hname.actsOn hbase, fun h => ?_⟩
  by_contra hname
  -- a registry that holds just the entry keeps it
  let a : Application := { name }
  have hget : (Store.insert {} a).get? name = some a := by rw [Store.get?_insert, if_pos rfl]
  obtain ⟨s', hserve, hs'⟩ := (h (Store.insert {} a)).delete a hget
  have hkept := (Store.insert {} a).get?_serve_of_not_addressable hbase hname
    (c := .delete name) rfl
  rw [hserve, hs', Function.update_self, hget] at hkept
  exact absurd hkept nofun

theorem addressable_iff_actsOn_localhost :
    AtRoot "http://localhost:8080/" ∧ (∀ s, ActsOn "http://localhost:8080/" "my app" s) ∧
      ¬ ∀ s, ActsOn "http://localhost:8080/" "team/app" s := by
  have hbase : AtRoot "http://localhost:8080/" :=
    ⟨by decide, ⟨"http", "localhost:8080", ["specs"], none⟩, by decide, rfl, rfl⟩
  refine ⟨hbase, (addressable_iff_actsOn hbase "my app").mp (by decide), fun h => ?_⟩
  exact absurd ((addressable_iff_actsOn hbase "team/app").mpr h) (by decide)

end Rollout.Registry
