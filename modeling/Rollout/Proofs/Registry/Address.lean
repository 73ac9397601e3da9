/-
The names that a URL carries to a registry.

A client puts the name behind `/specs/` as it stands.  The reader of URLs may drop parts of it,
resolve it against the path or split it; what is left reaches the router, which decodes escapes in
it, also those that the name itself had.

* `Addressable`: the names that come through all of this;
* `Route.ofPath?_eq_one_iff`: the router finds the segments of a URL again;
* `AtRoot.name?_iff`: the URL of a name leads to the entry of that name when the name is
  addressable, and only then.
-/
import Rollout.Proofs.Http.Segment
import Rollout.Registry.Client
import Rollout.Registry.Service

namespace Rollout.Registry

open Http (EscapeFree percentDecodeText?)
open Http.Url (CarriedAtEnd carriedAtEnd_of_resolve dots isSlash parse? pathPart pieces resolve
  slash_notMem_of_mem_resolve splitOn_path)

/-! ### Names -/

/-- A name that a URL carries to a registry as it stands, in a segment of its own. -/
structure Addressable (name : String) : Prop where
  nonempty : name ≠ ""
  /-- No character begins another segment, a query or a fragment, or is dropped. -/
  plain : ∀ c ∈ name.toList, c ∉ ['/', '\\', '?', '#', '\t', '\n', '\r']
  /-- No blanks are dropped at the end. -/
  last : ∀ c ∈ name.toList.getLast?, ' ' < c
  /-- It is no dot segment. -/
  notDots : dots name.toList ≠ some 1 ∧ dots name.toList ≠ some 2
  /-- Nothing in it is taken for an escape. -/
  escapeFree : EscapeFree name.toList

instance (name : String) : Decidable (Addressable name) :=
  have : Decidable (∀ c ∈ name.toList, c ∉ ['/', '\\', '?', '#', '\t', '\n', '\r']) :=
    List.decidableBAll _ _
  have : Decidable (∀ c ∈ name.toList.getLast?, ' ' < c) := Option.decidableForallMem _
  decidable_of_iff
    (name ≠ "" ∧ (∀ c ∈ name.toList, c ∉ ['/', '\\', '?', '#', '\t', '\n', '\r']) ∧
      (∀ c ∈ name.toList.getLast?, ' ' < c) ∧
      (dots name.toList ≠ some 1 ∧ dots name.toList ≠ some 2) ∧ EscapeFree name.toList)
    ⟨fun ⟨h₁, h₂, h₃, h₄, h₅⟩ => ⟨h₁, h₂, h₃, h₄, h₅⟩,
      fun ⟨h₁, h₂, h₃, h₄, h₅⟩ => ⟨h₁, h₂, h₃, h₄, h₅⟩⟩

/-! ### Routes -/

theorem Route.ofPath?_eq_one_iff {u : Http.Url} (hne : u.segments ≠ [])
    (hslash : ∀ x ∈ u.segments, '/' ∉ x.toList) {x : String} :
    ofPath? u.path = some (.one x) ↔ u.segments = ["specs", x] ∧ x ≠ "" := by
  rw [ofPath?, splitOn_path hne hslash]
  constructor
  · intro h
    split at h
    · simp at h
    · simp at h
    · next y hy =>
      split at h
      · simp at h
      · next hempty =>
        obtain rfl : y = x := by simpa using h
        exact ⟨(List.cons.inj hy).2, by simpa using hempty⟩
    · simp at h
  · rintro ⟨h, hempty⟩
    simp [h, hempty]

/-- The name whose entry a path leads to. -/
def Route.name? (path : String) : Option String :=
  match ofPath? path with
  | some (.one x) => percentDecodeText? x
  | _ => none

theorem Route.name?_eq_some_iff {path name : String} :
    name? path = some name ↔
      ∃ x, ofPath? path = some (.one x) ∧ percentDecodeText? x = some name := by
  rw [name?]
  split
  · next x hx => simp [hx]
  · next hx =>
    refine ⟨nofun, ?_⟩
    rintro ⟨x, hx', -⟩
    exact absurd hx' (hx x)

/-! ### Names below a base -/

/-- A name that is read of the last of its two segments is addressable. -/
theorem addressable_of_resolve {name x : String}
    (hx : resolve ["specs"] (pieces isSlash (pathPart name.toList)) = ["specs", x])
    (hempty : x ≠ "") (hdecode : percentDecodeText? x = some name) : Addressable name := by
  have hlast : (resolve ["specs"] (pieces isSlash (pathPart name.toList))).getLast? = some x := by
    rw [hx]
    rfl
  have hcarried := carriedAtEnd_of_resolve hlast hdecode
  refine ⟨?_, hcarried.plain, hcarried.last, hcarried.notDots, hcarried.escapeFree⟩
  -- an empty name would have left an empty segment
  rintro rfl
  have hnone : resolve ["specs"] (pieces isSlash (pathPart "".toList)) = ["specs", ""] := by decide
  rw [hnone] at hx
  exact hempty (by simpa using hx.symm)

/-- A base leads to the root of a registry: what is asked of it for the list is just the list. -/
structure AtRoot (base : String) : Prop where
  noFragment : '#' ∉ (trimBase base).toList
  list : ∃ u, parse? (trimBase base ++ Call.list.path) = some u ∧ u.segments = ["specs"] ∧
    u.query = none

theorem atRoot_localhost : AtRoot "http://localhost:8080" :=
  ⟨by decide, ⟨"http", "localhost:8080", ["specs"], none⟩, by decide, rfl, rfl⟩

/-- The segments of the URL of a name. -/
theorem AtRoot.exists_url {base : String} (hbase : AtRoot base) (name : String) :
    ∃ u, parse? (trimBase base ++ ("/specs/" ++ name)) = some u ∧
      u.segments = resolve ["specs"] (pieces isSlash (pathPart name.toList)) := by
  obtain ⟨u, hu, hsegments, hquery⟩ := hbase.list
  have hword : Http.Url.Word "specs".toList := ⟨by decide, List.all_eq_true.mp (by decide)⟩
  have hspecs : Http.Url.segment "specs".toList = "specs" := by decide
  have hlist : trimBase base ++ Call.list.path
      = .ofList ((trimBase base).toList ++ '/' :: "specs".toList) := by
    apply String.toList_injective
    simp [Call.path]
  have hname : trimBase base ++ ("/specs/" ++ name)
      = .ofList ((trimBase base).toList ++ '/' :: ("specs".toList ++ '/' :: name.toList)) := by
    apply String.toList_injective
    simp
  rw [hlist] at hu
  obtain ⟨v, hv, hvsegments⟩ := Http.Url.parse?_under hbase.noFragment hword (by decide) hu hquery
    (by rw [hsegments, hspecs]) ("specs".toList ++ '/' :: name.toList)
  refine ⟨v, by rw [hname, hv], ?_⟩
  obtain ⟨q, qs, hq⟩ :=
    List.exists_cons_of_ne_nil (Http.Url.pieces_ne_nil isSlash (pathPart name.toList))
  have henter : Http.Url.enter [] "specs".toList = ["specs"] := by decide
  rw [hvsegments, hword.pathPart_append_slash, Http.Url.pieces_append (by decide), hword.pieces_eq,
    hq, Http.Url.resolve_append, List.foldl_cons, henter, List.foldl_nil]

/-- **Names in URLs.**  The URL of a name leads to the entry of that name when the name is
addressable, and only then. -/
theorem AtRoot.name?_iff {base : String} (hbase : AtRoot base) (name : String) :
    ∃ u, parse? (trimBase base ++ ("/specs/" ++ name)) = some u ∧
      (Route.name? u.path = some name ↔ Addressable name) := by
  obtain ⟨u, hu, hsegments⟩ := hbase.exists_url name
  refine ⟨u, hu, ?_⟩
  have hne : u.segments ≠ [] := hsegments ▸ Http.Url.resolve_ne_nil _ (Http.Url.pieces_ne_nil _ _)
  -- the pieces of the name lost their slashes, and encoding brings none
  have hslash : ∀ x ∈ u.segments, '/' ∉ x.toList := by
    rw [hsegments]
    exact slash_notMem_of_mem_resolve (by decide)
  rw [Route.name?_eq_some_iff]
  constructor
  · rintro ⟨x, hx, hdecode⟩
    obtain ⟨hx, hempty⟩ := (Route.ofPath?_eq_one_iff hne hslash).mp hx
    exact addressable_of_resolve (hsegments.symm.trans hx) hempty hdecode
  · intro h
    have hcarried : CarriedAtEnd name := ⟨⟨h.plain, h.notDots, h.escapeFree⟩, h.last⟩
    refine ⟨Http.Url.segment name.toList, (Route.ofPath?_eq_one_iff hne hslash).mpr ⟨?_, ?_⟩,
      hcarried.decode_segment⟩
    · rw [hsegments, Http.Url.resolve_atEnd hcarried]
      rfl
    · exact Http.Url.segment_ne_empty (by simpa using h.nonempty)

end Rollout.Registry
