/-
Which resource of a cluster a request reaches.

A client puts the namespace and the name into the path as they stand.  The server reads the kind,
the namespace and the name of a resource from the segments that arrive.

* `Call.address` is what a server has to read;
* `Call.Carried`: the calls whose namespace and name come through;
* `PlainServer.exists_url`: below a server a path is read as if nothing stood in front of it;
* `Call.reaches_iff`: the request of a call reaches what the call is about when its namespace and
  its name are carried, and only then.
-/
import Rollout.Kubernetes.Client
import Rollout.Plan.Basic
import Rollout.Proofs.Http.Segment

namespace Rollout.Kubernetes

open Http (percentDecodeText?)
open Http.Url (Carried CarriedAtEnd Unmarked authorityOf? dropWhile_of_forall enter
  isControlOrSpace isSlash isTabOrLineEnd parse? pathPart pieces resolve under under_append)

/-! ### Addresses -/

/-- The segments in front of the namespaces of a kind. -/
def Kind.root : Kind → List String
  | deployment | statefulSet => ["apis", "apps", "v1", "namespaces"]
  | service => ["api", "v1", "namespaces"]

theorem Kind.toList_collectionPath (k : Kind) (ns : String) :
    (k.collectionPath ns).toList = '/' :: under k.root (ns.toList ++ '/' :: k.plural.toList) := by
  cases k <;> simp [collectionPath, root, apiRoot, under, toString]

namespace Call

/-- The kind of the resource that a call is about. -/
def kind : Call → Kind
  | create _ r => r.kind
  | delete t => t.kind

/-- The namespace that a call goes to. -/
def ns : Call → String
  | create ns _ => ns
  | delete t => t.ns

/-- The name that a call goes to: a removal goes to a resource, a creation to its collection. -/
def item? : Call → Option String
  | create _ _ => none
  | delete t => some t.name

/-- The segments that a server has to read. -/
def address (call : Call) : List String :=
  call.kind.root ++ [call.ns, call.kind.plural] ++ call.item?.toList

/-- A call whose namespace and name come through as they are. -/
structure Carried (call : Call) : Prop where
  ns : Http.Url.Carried call.ns
  item : ∀ name ∈ call.item?, CarriedAtEnd name

/-- What stands in the path behind the namespace. -/
def behind (call : Call) : List Char :=
  match call.item? with
  | none => call.kind.plural.toList
  | some name => call.kind.plural.toList ++ '/' :: name.toList

theorem toList_path (call : Call) :
    call.path.toList = '/' :: under call.kind.root (call.ns.toList ++ '/' :: call.behind) := by
  cases call with
  | create ns r => exact r.kind.toList_collectionPath ns
  | delete t =>
    have hitem : (t.kind.itemPath t.ns t.name).toList
        = (t.kind.collectionPath t.ns).toList ++ '/' :: t.name.toList := by
      simp [Kind.itemPath, toString]
    rw [path, hitem, Kind.toList_collectionPath, List.cons_append, under_append, List.append_assoc]
    rfl

end Call

/-! ### Servers -/

/-- A server that is given by a scheme and an authority: a host, and perhaps a port. -/
structure PlainServer (server scheme authority : String) : Prop where
  text : server = scheme ++ "://" ++ authority
  known : String.ofList (scheme.toList.map Char.toLower) ∈ ["http", "https"]
  plain : ∀ c ∈ authority.toList,
    isControlOrSpace c = false ∧ isSlash c = false ∧ c ≠ '#' ∧ c ≠ '?'
  valid : (authorityOf? (String.ofList (scheme.toList.map Char.toLower)) authority.toList).isSome

namespace PlainServer

variable {server scheme authority : String}

theorem le_toNat (h : PlainServer server scheme authority) {c : Char} (hc : c ∈ scheme.toList) :
    0x41 ≤ c.toNat := by
  by_contra hlt
  have hlow : ∀ n < 0x41, (Char.ofNat n).toLower ∉ "http".toList ∧
      (Char.ofNat n).toLower ∉ "https".toList := by decide
  have hnot := hlow c.toNat (Nat.not_le.mp hlt)
  rw [c.ofNat_toNat] at hnot
  have hmem : c.toLower ∈ (String.ofList (scheme.toList.map Char.toLower)).toList := by
    rw [String.toList_ofList]
    exact List.mem_map_of_mem hc
  rcases List.mem_pair.mp h.known with hknown | hknown <;> rw [hknown] at hmem
  · exact hnot.1 hmem
  · exact hnot.2 hmem

theorem toList_eq (h : PlainServer server scheme authority) :
    server.toList = scheme.toList ++ ':' :: '/' :: '/' :: authority.toList := by
  rw [h.text]
  simp

theorem hash_notMem (h : PlainServer server scheme authority) : '#' ∉ server.toList := by
  rw [h.toList_eq]
  simp only [List.mem_append, List.mem_cons]
  rintro (hm | hm | hm | hm | hm)
  · exact absurd (h.le_toNat hm) (by decide)
  · exact absurd hm (by decide)
  · exact absurd hm (by decide)
  · exact absurd hm (by decide)
  · exact (h.plain _ hm).2.2.1 rfl

/-- The parts that the reader finds. -/
theorem base (h : PlainServer server scheme authority) :
    ∃ base : Http.Url.Base server.toList, base.scheme = scheme.toList ∧
      base.front = authority.toList := by
  have hscheme : ∀ c ∈ scheme.toList, isControlOrSpace c = false ∧ (c == ':') = false := by
    intro c hc
    have hle := h.le_toNat hc
    refine ⟨decide_eq_false (by omega), beq_eq_false_iff_ne.mpr ?_⟩
    rintro rfl
    exact absurd hle (by decide)
  have hcontrol : ∀ c ∈ server.toList, isControlOrSpace c = false := by
    intro c hc
    simp only [h.toList_eq, List.mem_append, List.mem_cons] at hc
    rcases hc with hc | rfl | rfl | rfl | hc
    · exact (hscheme c hc).1
    · decide
    · decide
    · decide
    · exact (h.plain c hc).1
  have hkept : (server.toList.dropWhile isControlOrSpace).filter (!isTabOrLineEnd ·)
      = server.toList := by
    rw [dropWhile_of_forall hcontrol, List.filter_eq_self]
    intro c hc
    rw [Http.Url.isTabOrLineEnd_of_not_control (hcontrol c hc)]
    rfl
  have hslash : ('/' :: '/' :: authority.toList).dropWhile isSlash = authority.toList :=
    dropWhile_of_forall fun c hc => (h.plain c hc).2.1
  have hnonempty : authority.toList ≠ [] := by
    intro hnil
    have hvalid := h.valid
    rw [hnil] at hvalid
    cases hvalid
  exact ⟨⟨scheme.toList, '/' :: '/' :: authority.toList, authority.toList, hkept.trans h.toList_eq,
    fun c hc => (hscheme c hc).2, hslash, hnonempty,
    fun c hc => beq_eq_false_iff_ne.mpr (h.plain c hc).2.2.1,
    fun c hc => beq_eq_false_iff_ne.mpr (h.plain c hc).2.2.2⟩, rfl, rfl⟩

theorem exists_url (h : PlainServer server scheme authority) (path : List Char) :
    ∃ u, parse? (String.ofList (server.toList ++ '/' :: path)) = some u ∧
      u.segments = resolve [] (pieces isSlash (pathPart path)) ∧
      (Unmarked path → u.query = none) := by
  obtain ⟨base, hscheme, hfront⟩ := h.base
  have hall : ∀ c ∈ authority.toList, (!isSlash c) = true := fun c hc => by
    rw [(h.plain c hc).2.1]
    rfl
  obtain ⟨read, hread⟩ := Option.isSome_iff_exists.mp h.valid
  rw [base.parse?_append_slash, hscheme, hfront, List.takeWhile_eq_self_iff.mpr hall,
    List.dropWhile_eq_nil_iff.mpr hall]
  dsimp only
  rw [if_pos (by simpa using h.known), hread]
  refine ⟨_, rfl, rfl, fun hmarks => ?_⟩
  have htidy : ∀ c ∈ Http.Url.tidy path, (c == '#') = false ∧ (c == '?') = false := fun c hc => by
    simpa using hmarks c ((Http.Url.tidy_sublist path).subset hc)
  dsimp only
  rw [Http.Url.cut_of_forall fun c hc => (htidy c hc).1,
    Http.Url.cut_of_forall fun c hc => (htidy c hc).2]
  rfl

end PlainServer

/-! ### Requests -/

theorem Kind.carried_root (k : Kind) :
    ∀ word ∈ k.root, Carried word ∧ Http.Url.segment word.toList = word := by
  cases k <;> decide

theorem Kind.decode_root (k : Kind) : ∀ word ∈ k.root, percentDecodeText? word = some word := by
  intro word hm
  obtain ⟨hcarried, hsegment⟩ := k.carried_root word hm
  have hdecode := hcarried.decode_segment
  rwa [hsegment] at hdecode

theorem Kind.carriedAtEnd_plural (k : Kind) : CarriedAtEnd k.plural := by
  cases k <;> decide

namespace Call

/-- A request reaches what a call is about: it has no query and no fragment, and a server reads the
address of the call from its path. -/
structure Reaches (call : Call) (c : Connection) (r : Http.Request) : Prop where
  noFragment : '#' ∉ (c.server ++ call.path).toList
  noQuery : r.query = none
  path : (r.path.splitOn "/").map percentDecodeText? = ("" :: call.address).map some

variable {call : Call}

/-- What becomes of the path behind the namespace when the name is carried. -/
theorem resolve_behind (hitem : ∀ name ∈ call.item?, CarriedAtEnd name) (done : List String) :
    resolve done (pieces isSlash (pathPart call.behind))
      = done.reverse
        ++ (call.kind.plural :: call.item?.toList).map (Http.Url.segment ·.toList) := by
  cases call with
  | create ns r => exact Http.Url.resolve_atEnd r.kind.carriedAtEnd_plural done
  | delete t =>
    have hplural := t.kind.carriedAtEnd_plural
    have hbehind : (delete t).behind = t.kind.plural.toList ++ '/' :: t.name.toList := rfl
    rw [hbehind, Http.Url.resolve_between hplural.toCarried,
      Http.Url.resolve_atEnd (hitem t.name rfl), List.reverse_cons, List.append_assoc]
    rfl

theorem decode_segments {texts : List String} (h : ∀ text ∈ texts, Http.Url.Carried text) :
    (texts.map (Http.Url.segment ·.toList)).map percentDecodeText? = texts.map some := by
  rw [List.map_map]
  exact List.map_congr_left fun text hm => (h text hm).decode_segment

theorem carried_behind (hitem : ∀ name ∈ call.item?, CarriedAtEnd name) :
    ∀ text ∈ call.kind.plural :: call.item?.toList, Http.Url.Carried text := by
  intro text hm
  rcases List.mem_cons.mp hm with rfl | hm
  · exact call.kind.carriedAtEnd_plural.toCarried
  · exact (hitem text (by simpa using hm)).toCarried

/-- What is carried is read again. -/
theorem Carried.decode_resolve (h : call.Carried) :
    (resolve call.kind.root.reverse
      (pieces isSlash (pathPart (call.ns.toList ++ '/' :: call.behind)))).map percentDecodeText?
        = call.address.map some := by
  have hroot : call.kind.root.map percentDecodeText? = call.kind.root.map some :=
    List.map_congr_left fun word hm => call.kind.decode_root word hm
  rw [Http.Url.resolve_between h.ns, resolve_behind h.item, List.map_append,
    decode_segments (carried_behind h.item), List.reverse_cons, List.reverse_reverse,
    List.map_append, hroot, List.map_singleton, h.ns.decode_segment, address]
  simp

/-- A name that is read again was carried. -/
theorem carriedAtEnd_of_decode_resolve {done : List String}
    (h : (resolve done (pieces isSlash (pathPart call.behind))).map percentDecodeText?
      = call.address.map some) : ∀ name ∈ call.item?, CarriedAtEnd name := by
  cases call with
  | create ns r => nofun
  | delete t =>
    intro name hname
    obtain rfl : t.name = name := Option.some_inj.mp hname
    have hplural := t.kind.carriedAtEnd_plural.toCarried
    have hbehind : (delete t).behind = t.kind.plural.toList ++ '/' :: t.name.toList := rfl
    rw [hbehind, Http.Url.resolve_between hplural] at h
    have hlast := congrArg List.getLast? h
    rw [List.getLast?_map, List.getLast?_map, address, item?, Option.toList_some,
      List.getLast?_concat, Option.map_some] at hlast
    obtain ⟨x, hx, hdecode⟩ := Option.map_eq_some_iff.mp hlast
    exact Http.Url.carriedAtEnd_of_resolve hx hdecode

/-- What is read again was carried. -/
theorem carried_of_decode_resolve (h : (resolve call.kind.root.reverse
      (pieces isSlash (pathPart (call.ns.toList ++ '/' :: call.behind)))).map percentDecodeText?
        = call.address.map some) : call.Carried := by
  have hword : ∀ x ∈ call.kind.root.reverse, percentDecodeText? x = some call.ns →
      Http.Url.Carried call.ns := by
    intro x hx hdecode
    rw [List.mem_reverse] at hx
    obtain rfl := Option.some_inj.mp ((call.kind.decode_root x hx).symm.trans hdecode)
    exact (call.kind.carried_root _ hx).1
  have hmarks : Unmarked call.ns.toList := by
    by_contra hmark
    have hns : some call.ns ∈ call.address.map some :=
      List.mem_map_of_mem (by simp [address])
    rw [← h] at hns
    obtain ⟨x, hx, hdecode⟩ := List.mem_map.mp hns
    exact hmark (hword x (Http.Url.mem_done_of_mark hmark hx hdecode) hdecode).unmarked
  rw [Http.Url.resolve_pathPart_append hmarks] at h
  have hitem := carriedAtEnd_of_decode_resolve h
  refine ⟨?_, hitem⟩
  -- the name and the plural are read at the end, so what the namespace entered is read before
  generalize hentered : (pieces isSlash (call.ns.toList.filter (!isTabOrLineEnd ·))).foldl enter
    call.kind.root.reverse = entered at h
  have haddress : call.address
      = (call.kind.root ++ [call.ns]) ++ (call.kind.plural :: call.item?.toList) := by
    simp [address]
  rw [resolve_behind hitem, List.map_append, decode_segments (carried_behind hitem), haddress,
    List.map_append] at h
  have hread := congrArg List.reverse (List.append_cancel_right h)
  rw [List.map_reverse, List.reverse_reverse, List.map_append, List.reverse_append] at hread
  obtain ⟨x, more, rfl, hdecode, hmore⟩ := List.map_eq_cons_iff.mp hread
  have hlength : more.length = call.kind.root.reverse.length := by
    simpa using congrArg List.length hmore
  rcases Http.Url.carried_of_foldl_enter hmarks hentered hlength hdecode with hx | hns
  · exact hword x hx hdecode
  · exact hns

theorem Carried.unmarked (h : call.Carried) :
    Unmarked (under call.kind.root (call.ns.toList ++ '/' :: call.behind)) := by
  have hplural := call.kind.carriedAtEnd_plural.unmarked
  have hbehind : Unmarked call.behind := by
    cases call with
    | create ns r => exact hplural
    | delete t => exact hplural.append_slash (h.item t.name rfl).unmarked
  exact Http.Url.unmarked_under (fun word hm => (call.kind.carried_root word hm).1.unmarked)
    (h.ns.unmarked.append_slash hbehind)

end Call

theorem Connection.exists_request {c : Connection} {path : String} {u : Http.Url}
    (hu : parse? (c.server ++ path) = some u) (method : String) :
    ∃ r, c.request method path = .ok r ∧ r.path = u.path ∧ r.query = u.query := by
  rw [Connection.request, hu]
  exact ⟨_, rfl, rfl, rfl⟩

namespace Call

theorem exists_request {c : Connection} {call : Call} {u : Http.Url}
    (hu : parse? (c.server ++ call.path) = some u) :
    ∃ r, call.request c = .ok r ∧ r.path = u.path ∧ r.query = u.query := by
  cases call with
  | create ns r =>
    obtain ⟨q, hq, hpath, hquery⟩ := Connection.exists_request hu "POST"
    exact ⟨q.withJson r.toJson, by rw [request, hq]; rfl, hpath, hquery⟩
  | delete t =>
    obtain ⟨q, hq, hpath, hquery⟩ := Connection.exists_request hu "DELETE"
    exact ⟨q.withJson (deleteOptions t.propagation), by rw [request, hq]; rfl, hpath, hquery⟩

/-- The request of a call reaches what the call is about when its namespace and its name are
carried, and only then. -/
theorem exists_reaches_iff {c : Connection} {scheme authority : String}
    (hc : PlainServer c.server scheme authority) (call : Call) :
    ∃ r, call.request c = .ok r ∧ (call.Reaches c r ↔ call.Carried) := by
  have htext : c.server ++ call.path = String.ofList (c.server.toList ++
      '/' :: under call.kind.root (call.ns.toList ++ '/' :: call.behind)) := by
    rw [← call.toList_path, ← String.toList_append, String.ofList_toList]
  obtain ⟨u, hu, hsegments, hquery⟩ :=
    hc.exists_url (under call.kind.root (call.ns.toList ++ '/' :: call.behind))
  rw [Http.Url.resolve_under call.kind.carried_root, List.append_nil] at hsegments
  rw [← htext] at hu
  obtain ⟨r, hr, hpath, hrquery⟩ := exists_request hu
  have hroot : ∀ x ∈ call.kind.root.reverse, '/' ∉ x.toList := by
    cases call.kind <;> decide
  have hsplit : r.path.splitOn "/" = "" :: u.segments := by
    rw [hpath, Http.Url.splitOn_path]
    · exact hsegments ▸ Http.Url.resolve_ne_nil _ (Http.Url.pieces_ne_nil _ _)
    · exact hsegments ▸ Http.Url.slash_notMem_of_mem_resolve hroot
  refine ⟨r, hr, fun h => ?_, fun h => ⟨?_, ?_, ?_⟩⟩
  · have hread := h.path
    rw [hsplit, List.map_cons, List.map_cons, hsegments] at hread
    exact carried_of_decode_resolve (List.cons.inj hread).2
  · rw [String.toList_append, toList_path, List.mem_append, List.mem_cons, not_or, not_or]
    exact ⟨hc.hash_notMem, by decide, fun hm => (h.unmarked _ hm).1 rfl⟩
  · exact hrquery.trans (hquery h.unmarked)
  · rw [hsplit, List.map_cons, List.map_cons, hsegments, Http.Url.decode_empty, h.decode_resolve]

/-- An address tells the kind, the namespace and the name. -/
theorem address_inj {call call' : Call} (h : call.address = call'.address) :
    call.kind = call'.kind ∧ call.ns = call'.ns ∧ call.item? = call'.item? := by
  unfold address at h
  generalize call.kind = k, call'.kind = k' at h ⊢
  generalize call.item? = item, call'.item? = item' at h ⊢
  cases k <;> cases k' <;> cases item <;> cases item' <;>
    simp [Kind.root, Kind.plural] at h ⊢ <;> exact h

/-- **Requests of calls.**  A call to a plain server sends a request, and that reaches what the call
is about when the namespace and the name of the call are carried, and only then; what calls with
other kinds, namespaces or names reach lies elsewhere. -/
theorem reaches_iff {c : Connection} {scheme authority : String}
    (hc : PlainServer c.server scheme authority) :
    (∀ call : Call, ∃ r, call.request c = .ok r ∧ (call.Reaches c r ↔ call.Carried)) ∧
      ∀ (call call' : Call) (r r' : Http.Request), call.Carried → call'.Carried →
        call.request c = .ok r → call'.request c = .ok r' → r.path = r'.path →
        call.kind = call'.kind ∧ call.ns = call'.ns ∧ call.item? = call'.item? := by
  refine ⟨exists_reaches_iff hc, fun call call' r r' h h' hr hr' hpath => ?_⟩
  have hreach : ∀ {call : Call} {r : Http.Request}, call.Carried → call.request c = .ok r →
      call.Reaches c r := by
    intro call r h hr
    obtain ⟨r', hr', hiff⟩ := exists_reaches_iff hc call
    obtain rfl := Except.ok.inj (hr.symm.trans hr')
    exact hiff.mpr h
  have hread := (hreach h hr).path
  rw [hpath, (hreach h' hr').path] at hread
  have haddress := List.map_injective_iff.mpr (fun _ _ => Option.some_inj.mp) hread
  exact address_inj (List.cons.inj haddress).2.symm

/-- A valid application with a slash in the name of a service. -/
def slashedName : Spec.Application :=
  { name := "shop",
    services := [{ name := "web/status", ports := [{ number := 80 }], replicas := 1 }] }

/-- No request of the plan to take it down reaches what it is about; that for a service without the
slash would. -/
theorem reaches_iff_slashedName :
    slashedName.validate = .ok () ∧
      ∃ (c : Connection) (ops : List Plan.Operation),
        PlainServer c.server "http" "127.0.0.1:8001" ∧
        Plan.compile (.kubernetes c) {} .delete slashedName
          = .ok ⟨.delete, .operations c (.of none) ops⟩ ∧ ops.length = 2 ∧
        (∀ op ∈ ops, ∃ r, op.call.request c = .ok r ∧ ¬op.call.Reaches c r) ∧
        ∃ r, (delete { kind := .service, name := "web", ns := "default" }).request c = .ok r ∧
          (delete { kind := .service, name := "web", ns := "default" }).Reaches c r := by
  have hserver : PlainServer (Connection.plain "http://127.0.0.1:8001/").server "http"
      "127.0.0.1:8001" :=
    ⟨by decide, by decide, List.forall_iff_forall_mem.mp (by decide), by decide⟩
  have hname : ∀ op ∈ slashedName.services.flatMap (Plan.deleteService Plan.defaultNamespace),
      op.call.item? = some "web/status" := by decide
  have hweb : (delete { kind := .service, name := "web", ns := "default" }).Carried := by
    refine ⟨by decide, fun name hm => ?_⟩
    obtain rfl : "web" = name := Option.some_inj.mp hm
    decide
  refine ⟨by decide, _, _, hserver, rfl, rfl, fun op hop => ?_, ?_⟩
  · obtain ⟨r, hr, hiff⟩ := (reaches_iff hserver).1 op.call
    refine ⟨r, hr, fun h => ?_⟩
    exact absurd ((hiff.mp h).item "web/status" (hname op hop)) (by decide)
  · obtain ⟨r, hr, hiff⟩ := (reaches_iff hserver).1 _
    exact ⟨r, hr, hiff.mpr hweb⟩

end Call

end Rollout.Kubernetes
