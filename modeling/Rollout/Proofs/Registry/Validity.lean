/-
What a registry serves is valid.

* `Store.Valid` is the invariant: the names increase, and no specification breaks a rule;
  `Store.Valid.respond` says that an answer keeps it, `Store.Valid.after` that every history does;
* `Store.answer_of_status`: what a client reads off the answer to a `GET` of a name is the
  specification under the name;
* `Store.exists_get?_of_answer`: what a client reads off the answer to any `GET` is one of the
  specifications of the registry.

Design notes: a client puts names into URLs as they stand, so that its `GET` may end at any route.
The lists and the health that are told there are documents too, and that they are no specifications
is a matter of the schema.
-/
import Rollout.Proofs.Registry.Client
import Rollout.Proofs.Registry.History
import Rollout.Proofs.Spec.Conformance

namespace Rollout.Registry

open Http (Request Response)
open Json (Node Tree)
open Spec (Application)

namespace Store

variable {s : Store} {r : Request} {name : String} {a : Application}

/-! ### The invariant -/

/-- The names of the specifications increase, and none of them breaks a rule. -/
structure Valid (s : Store) : Prop where
  sorted : s.Sorted
  rules : ∀ a ∈ s.specs, a.validate = .ok ()

theorem valid_empty : Valid {} :=
  ⟨sorted_empty, nofun⟩

theorem Valid.insert (h : s.Valid) (ha : a.validate = .ok ()) : (s.insert a).Valid := by
  refine ⟨h.sorted.insert a, fun b hb => ?_⟩
  rcases mem_insertInto hb with rfl | hb
  · exact ha
  · exact h.rules b hb

theorem Valid.erase (h : s.Valid) (name : String) : (s.erase name).Valid :=
  ⟨h.sorted.erase name, fun b hb => h.rules b (List.mem_of_mem_filter hb)⟩

/-- Every answer keeps the registry valid, whatever the request brings. -/
theorem Valid.respond (h : s.Valid) (r : Request) : (s.respond r).2.Valid := by
  cases hask : ask? r with
  | none => rwa [respond_of_no_ask hask]
  | some x =>
    rw [respond_of_ask hask]
    cases x with
    | list => exact h
    | get name => exact h
    | put name =>
      rw [grant]
      -- what is stored was checked, and what was not is not stored
      by_cases hs : ∃ a, Storable name r a
      · obtain ⟨a, ha⟩ := hs
        rw [put_of_storable ha]
        exact h.insert ha.2.2
      · rwa [(put_of_not_storable hs).2]
    | delete name =>
      rw [grant, remove]
      split
      · exact h.erase name
      · exact h

theorem Valid.after (h : s.Valid) (history : List Request) : (s.after history).Valid := by
  induction history generalizing s with
  | nil => exact h
  | cons r history ih => exact ih (h.respond r)

theorem Valid.get? (h : s.Valid) (ha : s.get? name = some a) :
    a.name = name ∧ a.validate = .ok () :=
  ⟨name_of_get? ha, h.rules a (List.mem_of_find?_eq_some ha)⟩

/-! ### What clients read -/

/-- A client takes a document for a specification when it conforms to the wire schema. -/
theorem conforms_of_answer {wanted : String} {status : Nat} {v : Json.Value}
    (h : (Call.get wanted).answer (.json status v) = .ok (some a)) :
    ∃ t, (Node.ofValue v).tree? = some t ∧ Application.Conforms t a := by
  rw [Call.answer] at h
  split at h
  · cases h
  split at h
  · rw [map_some_eq_ok_iff, decodeBody, mapError_eq_ok_iff] at h
    exact (Application.schema_decides _ _).mp (Json.decodeBytes_compact_iff.mp h)
  · cases h

/-- The health of a registry is no specification: it has no name. -/
theorem answer_health (wanted : String) (a : Application) :
    (Call.get wanted).answer health ≠ .ok (some a) := by
  intro h
  obtain ⟨t, ht, _, _, _, _, hfields, _, hname, _⟩ := conforms_of_answer h
  obtain rfl := Option.some_inj.mp ht
  obtain ⟨-, -, hplaces⟩ := Tree.hasFields_object_iff.mp hfields
  cases hplaces
  exact hname

/-- Nor is a list of specifications, also where a record may be written as a list: its first item
would stand in the place of the identifier. -/
theorem answer_list (s : Store) (wanted : String) (a : Application) :
    (Call.get wanted).answer s.list ≠ .ok (some a) := by
  intro h
  obtain ⟨t, ht, _, _, _, _, hfields, hguid, hname, _⟩ := conforms_of_answer h
  obtain ⟨-, ts, hts, rfl⟩ := Json.Node.tree?_list.mp ht
  obtain ⟨-, hplaces⟩ := Tree.hasFields_list_iff.mp hfields
  -- in an empty list the name is missing, in any other the identifier is an object
  cases hspecs : s.specs with
  | nil =>
    rw [hspecs] at hts
    cases hts
    cases hplaces
    exact hname
  | cons b specs =>
    rw [hspecs] at hts
    obtain ⟨u, us, hu, -, rfl⟩ := Json.trees?_cons.mp hts
    obtain ⟨-, ms, -, rfl⟩ := Json.Node.tree?_object.mp hu
    obtain ⟨rfl, -⟩ := List.cons.inj hplaces
    obtain ⟨n, hn, -⟩ := hguid
    nomatch hn

/-- **What is fetched.**  The answer to a `GET` of a name under the status 200 is for a client the
specification of the name. -/
theorem answer_of_status (hask : ask? r = some (.get name)) (h : (s.respond r).1.status = 200)
    (wanted : String) :
    ∃ a, s.get? name = some a ∧ (Call.get wanted).answer (s.respond r).1 = .ok (some a) := by
  rw [respond_of_ask hask, grant] at h ⊢
  rw [answer_fetch]
  cases hget : s.get? name with
  | some a => exact ⟨a, rfl, rfl⟩
  | none =>
    rw [fetch, hget] at h
    cases h

/-- What a client reads off the answer to any `GET` is one of the specifications. -/
theorem exists_get?_of_answer (hmethod : r.method = "GET") {wanted : String}
    (h : (Call.get wanted).answer (s.respond r).1 = .ok (some a)) :
    ∃ name, s.get? name = some a := by
  unfold respond at h
  cases hroute : Route.ofPath? r.path with
  | none =>
    rw [hroute] at h
    cases h
  | some route =>
    -- every route has a `GET`, and its answer keeps the body
    have hallowed : route.methods.contains r.method = true := by
      rw [hmethod]
      cases route <;> rfl
    have hbody (response : Response) : withoutBody r.method response = response := by
      rw [hmethod]
      rfl
    simp only [hroute, hallowed, Bool.not_true, Bool.false_eq_true, if_false, hbody] at h
    cases route with
    | health => exact absurd h (answer_health wanted a)
    | all => exact absurd h (s.answer_list wanted a)
    | one segment =>
      dsimp only at h
      rw [respondOne, hmethod] at h
      cases hname : Http.percentDecodeText? segment with
      | none =>
        rw [hname] at h
        cases h
      | some name =>
        rw [hname] at h
        exact ⟨name, Except.ok.inj ((answer_fetch s wanted name).symm.trans h)⟩

/-- So is what a client gets by a `get`, also when its name leads elsewhere. -/
theorem exists_get?_of_serve {base wanted : String}
    (h : (s.serve base (.get wanted)).1 = .ok (some a)) : ∃ name, s.get? name = some a := by
  rw [serve] at h
  cases hrequest : (Call.get wanted).request base with
  | error e =>
    rw [hrequest] at h
    cases h
  | ok r =>
    rw [hrequest] at h
    exact exists_get?_of_answer (Call.method_of_request hrequest) h

end Store

end Rollout.Registry
