/-
Which texts are read as a whole document, and what it says.

* `Node.tree?`: what a node says when nothing in it is broken, and `Node.tokens` the tokens it is
  made of;
* `written_of_lex`, `lex_of_written`: those tokens are cut from the written forms of the tree, and
  from nothing else;
* `Document.build_tokens`: the tokens of a node make that node;
* `Document.tokens_complete`: and a document in which nothing is broken has used up all of them;
* `Document.read_says_iff`: a text is read as what it says by the grammar.

The way from tokens to nodes keeps an account: `pending` is what the open lists and objects have
taken when a value is due.
-/
import Rollout.Json.Node
import Rollout.Proofs.Json.Literal

namespace Rollout.Json

/-! ### Nodes without anything broken -/

mutual

/-- What a node says when nothing in it is broken. -/
def Node.tree? : Node → Option Tree
  | .null => some .null
  | .bool b => some (.bool b)
  | .number n => some (.number n)
  | .text value => some (.text value.toOption)
  | .list items .closed => (trees? items).map .list
  | .object members .closed => (memberTrees? members).map .object
  | .list _ (.broken ..) | .list _ (.oddName ..) => none
  | .object _ (.broken ..) | .object _ (.oddName ..) => none
  | .broken _ => none

def trees? : List Node → Option (List Tree)
  | [] => some []
  | v :: rest => v.tree?.bind fun t => (trees? rest).map (t :: ·)

def memberTrees? : List (Except Stop String × Node) → Option (List (Option String × Tree))
  | [] => some []
  | (name, v) :: rest =>
    v.tree?.bind fun t => (memberTrees? rest).map ((name.toOption, t) :: ·)

end

mutual

/-- The tokens of a node in which nothing is broken. -/
def Node.tokens : Node → List Token
  | .null => [.null]
  | .bool b => [.bool b]
  | .number n => [.number n]
  | .text value => [.text value]
  | .list items _ => .openList :: (Node.itemTokens items ++ [.closeList])
  | .object members _ => .openObject :: (Node.memberTokens members ++ [.closeObject])
  | .broken _ => []

/-- The tokens of some items with commas between them. -/
def Node.itemTokens : List Node → List Token
  | [] => []
  | [v] => v.tokens
  | v :: w :: rest => v.tokens ++ .comma :: Node.itemTokens (w :: rest)

/-- The tokens of some members with commas between them. -/
def Node.memberTokens : List (Except Stop String × Node) → List Token
  | [] => []
  | [(name, v)] => .text name :: .colon :: v.tokens
  | (name, v) :: m :: rest =>
    .text name :: .colon :: (v.tokens ++ .comma :: Node.memberTokens (m :: rest))

end

theorem trees?_cons {v : Node} {vs : List Node} {ts : List Tree} :
    trees? (v :: vs) = some ts
      ↔ ∃ t rest, v.tree? = some t ∧ trees? vs = some rest ∧ ts = t :: rest := by
  simp only [trees?, Option.bind_eq_some_iff, Option.map_eq_some_iff]
  exact ⟨fun ⟨t, ht, rest, hrest, h⟩ => ⟨t, rest, ht, hrest, h.symm⟩,
    fun ⟨t, rest, ht, hrest, h⟩ => ⟨t, ht, rest, hrest, h.symm⟩⟩

theorem memberTrees?_cons {name : Except Stop String} {v : Node}
    {ms : List (Except Stop String × Node)} {ts : List (Option String × Tree)} :
    memberTrees? ((name, v) :: ms) = some ts
      ↔ ∃ t rest, v.tree? = some t ∧ memberTrees? ms = some rest
        ∧ ts = (name.toOption, t) :: rest := by
  simp only [memberTrees?, Option.bind_eq_some_iff, Option.map_eq_some_iff]
  exact ⟨fun ⟨t, ht, rest, hrest, h⟩ => ⟨t, rest, ht, hrest, h.symm⟩,
    fun ⟨t, rest, ht, hrest, h⟩ => ⟨t, ht, rest, hrest, h.symm⟩⟩

/-- The node of a tree that is a list. -/
theorem Node.tree?_list {items : List Node} {ending : Ending} {t : Tree} :
    (Node.list items ending).tree? = some t
      ↔ ending = .closed ∧ ∃ ts, trees? items = some ts ∧ t = .list ts := by
  cases ending <;> simp [Node.tree?, eq_comm]

theorem Node.tree?_object {members : List (Except Stop String × Node)} {ending : Ending}
    {t : Tree} :
    (Node.object members ending).tree? = some t
      ↔ ending = .closed ∧ ∃ ts, memberTrees? members = some ts ∧ t = .object ts := by
  cases ending <;> simp [Node.tree?, eq_comm]

/-! ### Tokens and written forms -/

/-- A mark is one symbol. -/
theorem mark_of_lex {s : List Symbol} {t : Token} {ts : List Token} {c : Char}
    (h : lex s = t :: ts) (ht : ∀ b, t ≠ .broken b) (hc : ∀ w, t.Written w → w = [some c]) :
    ∃ b rest, s = b ++ some c :: rest ∧ Blank b ∧ lex rest = ts := by
  obtain ⟨b, w, rest, rfl, hb, hw, hrest⟩ := exists_written_of_lex h ht
  exact ⟨b, rest, by rw [hc w hw]; rfl, hb, hrest⟩

mutual

/-- The tokens of a node come from a written form of its tree. -/
theorem written_of_lex (v : Node) {t : Tree} (hv : v.tree? = some t) {s : List Symbol}
    {ts : List Token} (h : lex s = v.tokens ++ ts) :
    ∃ b w rest, s = b ++ (w ++ rest) ∧ Blank b ∧ Written t w ∧ lex rest = ts := by
  match v with
  | .null =>
    obtain rfl : Tree.null = t := Option.some.inj hv
    obtain ⟨b, w, rest, rfl, hb, rfl, hrest⟩ := exists_written_of_lex h nofun
    exact ⟨b, _, rest, rfl, hb, .null, hrest⟩
  | .bool x =>
    obtain rfl : Tree.bool x = t := Option.some.inj hv
    obtain ⟨b, w, rest, rfl, hb, rfl, hrest⟩ := exists_written_of_lex h nofun
    exact ⟨b, _, rest, rfl, hb, .bool x, hrest⟩
  | .number n =>
    obtain rfl : Tree.number n = t := Option.some.inj hv
    obtain ⟨b, w, rest, rfl, hb, hw, hrest⟩ := exists_written_of_lex h nofun
    exact ⟨b, w, rest, rfl, hb, .number hw, hrest⟩
  | .text value =>
    obtain rfl : Tree.text value.toOption = t := Option.some.inj hv
    obtain ⟨b, w, rest, rfl, hb, hw, hrest⟩ := exists_written_of_lex h nofun
    exact ⟨b, w, rest, rfl, hb, .text hw, hrest⟩
  | .list items ending =>
    obtain ⟨rfl, trees, htrees, rfl⟩ := Node.tree?_list.mp hv
    -- the bracket, the items, and the other bracket, each from what the one before left
    simp only [Node.tokens, List.cons_append, List.append_assoc, List.nil_append] at h
    obtain ⟨b, rest, rfl, hb, hrest⟩ := mark_of_lex h nofun fun _ => id
    obtain ⟨w, rest', rfl, hw, hrest'⟩ := writtenItems_of_lex items htrees hrest
    obtain ⟨c, rest, rfl, hc, hrest⟩ := mark_of_lex hrest' nofun fun _ => id
    exact ⟨b, _, rest, by simp, hb, .list hw hc, hrest⟩
  | .object members ending =>
    obtain ⟨rfl, trees, htrees, rfl⟩ := Node.tree?_object.mp hv
    simp only [Node.tokens, List.cons_append, List.append_assoc, List.nil_append] at h
    obtain ⟨b, rest, rfl, hb, hrest⟩ := mark_of_lex h nofun fun _ => id
    obtain ⟨w, rest', rfl, hw, hrest'⟩ := writtenMembers_of_lex members htrees hrest
    obtain ⟨c, rest, rfl, hc, hrest⟩ := mark_of_lex hrest' nofun fun _ => id
    exact ⟨b, _, rest, by simp, hb, .object hw hc, hrest⟩
  | .broken _ => simp [Node.tree?] at hv

theorem writtenItems_of_lex (items : List Node) {trees : List Tree}
    (hitems : trees? items = some trees) {s : List Symbol} {ts : List Token}
    (h : lex s = Node.itemTokens items ++ ts) :
    ∃ w rest, s = w ++ rest ∧ WrittenItems trees w ∧ lex rest = ts := by
  match items with
  | [] =>
    obtain rfl : [] = trees := Option.some.inj hitems
    exact ⟨[], s, rfl, .nil, h⟩
  | [v] =>
    obtain ⟨t, _, ht, hrest, rfl⟩ := trees?_cons.mp hitems
    obtain rfl := Option.some.inj hrest
    obtain ⟨b, w, rest, rfl, hb, hw, hrest⟩ := written_of_lex v ht h
    exact ⟨b ++ w, rest, by simp, .one hb hw, hrest⟩
  | v :: u :: items =>
    obtain ⟨t, _, ht, hrest, rfl⟩ := trees?_cons.mp hitems
    obtain ⟨t', rest', _, _, rfl⟩ := trees?_cons.mp hrest
    simp only [Node.itemTokens, List.append_assoc, List.cons_append] at h
    obtain ⟨b, w, s, rfl, hb, hw, hs⟩ := written_of_lex v ht h
    obtain ⟨c, s, rfl, hc, hs⟩ := mark_of_lex hs nofun fun _ => id
    obtain ⟨w', s, rfl, hw', hs⟩ := writtenItems_of_lex (u :: items) hrest hs
    exact ⟨_, s, by simp, .more hb hw hc hw', hs⟩

theorem writtenMembers_of_lex (members : List (Except Stop String × Node))
    {trees : List (Option String × Tree)} (hmembers : memberTrees? members = some trees)
    {s : List Symbol} {ts : List Token} (h : lex s = Node.memberTokens members ++ ts) :
    ∃ w rest, s = w ++ rest ∧ WrittenMembers trees w ∧ lex rest = ts := by
  match members with
  | [] =>
    obtain rfl : [] = trees := Option.some.inj hmembers
    exact ⟨[], s, rfl, .nil, h⟩
  | [(name, v)] =>
    obtain ⟨t, _, ht, hrest, rfl⟩ := memberTrees?_cons.mp hmembers
    obtain rfl := Option.some.inj hrest
    obtain ⟨b, n, s, rfl, hb, hn, hs⟩ := exists_written_of_lex h nofun
    obtain ⟨c, s, rfl, hc, hs⟩ := mark_of_lex hs nofun fun _ => id
    obtain ⟨d, w, s, rfl, hd, hw, hs⟩ := written_of_lex v ht hs
    exact ⟨_, s, by simp, .one hb hn hc hd hw, hs⟩
  | (name, v) :: m :: members =>
    obtain ⟨t, _, ht, hrest, rfl⟩ := memberTrees?_cons.mp hmembers
    obtain ⟨t', rest', _, _, rfl⟩ := memberTrees?_cons.mp hrest
    simp only [Node.memberTokens, List.append_assoc, List.cons_append] at h
    obtain ⟨b, n, s, rfl, hb, hn, hs⟩ := exists_written_of_lex h nofun
    obtain ⟨c, s, rfl, hc, hs⟩ := mark_of_lex hs nofun fun _ => id
    obtain ⟨d, w, s, rfl, hd, hw, hs⟩ := written_of_lex v ht hs
    obtain ⟨e, s, rfl, he, hs⟩ := mark_of_lex hs nofun fun _ => id
    obtain ⟨w', s, rfl, hw', hs⟩ := writtenMembers_of_lex (m :: members) hrest hs
    exact ⟨_, s, by simp, .more hb hn hc hd hw he hw', hs⟩

end

mutual

/-- Every written form of a tree gives the tokens of a node that says it. -/
theorem lex_of_written {t : Tree} {w : List Symbol} (h : Written t w) {rest : List Symbol}
    (hrest : Delimited rest) :
    ∃ v : Node, v.tree? = some t ∧ lex (w ++ rest) = v.tokens ++ lex rest := by
  match h with
  | .null => exact ⟨.null, rfl, by simp [symbols, lex_cons, isSpace, lexOne, lexWord, Node.tokens]⟩
  | .bool b =>
    refine ⟨.bool b, rfl, ?_⟩
    cases b <;> simp [symbols, lex_cons, isSpace, lexOne, lexWord, Node.tokens]
  -- only here it matters what follows: another digit would belong to the number
  | .number (n := n) h => exact ⟨.number n, rfl, lex_number h hrest⟩
  | .text h =>
    obtain ⟨value, rfl, hlex⟩ := lex_text h rest
    exact ⟨.text value, rfl, hlex⟩
  | .list (b := b) inside hb =>
    have hend := delimited_blank hb (delimited_mark (c := ']') (by decide) rest)
    obtain ⟨items, hitems, hlex⟩ := lex_of_writtenItems inside hend
    refine ⟨.list items .closed, by simp [Node.tree?, hitems], ?_⟩
    simp only [List.cons_append, List.append_assoc, List.nil_append, Node.tokens]
    rw [lex_mark _ (by decide) rfl, hlex, lex_blank hb, lex_mark _ (by decide) rfl]
  | .object (b := b) inside hb =>
    have hend := delimited_blank hb (delimited_mark (c := '}') (by decide) rest)
    obtain ⟨members, hmembers, hlex⟩ := lex_of_writtenMembers inside hend
    refine ⟨.object members .closed, by simp [Node.tree?, hmembers], ?_⟩
    simp only [List.cons_append, List.append_assoc, List.nil_append, Node.tokens]
    rw [lex_mark _ (by decide) rfl, hlex, lex_blank hb, lex_mark _ (by decide) rfl]

theorem lex_of_writtenItems {ts : List Tree} {w : List Symbol} (h : WrittenItems ts w)
    {rest : List Symbol} (hrest : Delimited rest) :
    ∃ vs, trees? vs = some ts ∧ lex (w ++ rest) = Node.itemTokens vs ++ lex rest := by
  match h with
  | .nil => exact ⟨[], rfl, rfl⟩
  | .one hb h =>
    obtain ⟨v, hv, hlex⟩ := lex_of_written h hrest
    refine ⟨[v], by simp [trees?, hv], ?_⟩
    rw [List.append_assoc, lex_blank hb, hlex, Node.itemTokens]
  | @WrittenItems.more _ _ _ _ _ _ s' hb h hc more =>
    obtain ⟨vs, hvs, hmore⟩ := lex_of_writtenItems more hrest
    obtain ⟨v, hv, hlex⟩ := lex_of_written h
      (delimited_blank hc (delimited_mark (c := ',') (by decide) (s' ++ rest)))
    -- there is a second item, so that the comma stands between two
    obtain ⟨u, us, rfl⟩ : ∃ u us, vs = u :: us := by
      cases vs with
      | nil => simp [trees?] at hvs
      | cons u us => exact ⟨u, us, rfl⟩
    refine ⟨v :: u :: us, trees?_cons.mpr ⟨_, _, hv, hvs, rfl⟩, ?_⟩
    simp only [List.append_assoc, List.cons_append, Node.itemTokens]
    rw [lex_blank hb, hlex, lex_blank hc, lex_mark _ (by decide) rfl, hmore]

theorem lex_of_writtenMembers {ts : List (Option String × Tree)} {w : List Symbol}
    (h : WrittenMembers ts w) {rest : List Symbol} (hrest : Delimited rest) :
    ∃ ms, memberTrees? ms = some ts ∧ lex (w ++ rest) = Node.memberTokens ms ++ lex rest := by
  match h with
  | .nil => exact ⟨[], rfl, rfl⟩
  | .one hb name hc hd h =>
    obtain ⟨v, hv, hlex⟩ := lex_of_written h hrest
    obtain ⟨value, hvalue, hname⟩ := lex_text name _
    refine ⟨[(value, v)], memberTrees?_cons.mpr ⟨_, [], hv, rfl, by rw [hvalue]⟩, ?_⟩
    simp only [List.append_assoc, List.cons_append, Node.memberTokens]
    rw [lex_blank hb, hname, lex_blank hc, lex_mark _ (by decide) rfl, lex_blank hd, hlex]
  | @WrittenMembers.more _ _ _ _ _ _ _ _ _ s' hb name hc hd h he more =>
    obtain ⟨ms, hms, hmore⟩ := lex_of_writtenMembers more hrest
    obtain ⟨v, hv, hlex⟩ := lex_of_written h
      (delimited_blank he (delimited_mark (c := ',') (by decide) (s' ++ rest)))
    obtain ⟨value, hvalue, hname⟩ := lex_text name _
    obtain ⟨m, ms, rfl⟩ : ∃ m ms', ms = m :: ms' := by
      cases ms with
      | nil => simp [memberTrees?] at hms
      | cons m ms => exact ⟨m, ms, rfl⟩
    refine ⟨(value, v) :: m :: ms, memberTrees?_cons.mpr ⟨_, _, hv, hms, by rw [hvalue]⟩, ?_⟩
    simp only [List.append_assoc, List.cons_append, Node.memberTokens]
    rw [lex_blank hb, hname, lex_blank hc, lex_mark _ (by decide) rfl, lex_blank hd, hlex,
      lex_blank he, lex_mark _ (by decide) rfl, hmore]

end

/-! ### From tokens to nodes -/

namespace Document

/-- A value never begins with the end of a list. -/
theorem closesList_tokens {v : Node} {t : Tree} (hv : v.tree? = some t) (ts : List Token) :
    closesList (v.tokens ++ ts) = false := by
  cases v <;> first | rfl | simp [Node.tree?] at hv

/-- The tokens of the items of a list begin with those of the first item. -/
theorem itemTokens_cons (v : Node) (items : List Node) (ts : List Token) :
    ∃ ts', Node.itemTokens (v :: items) ++ ts = v.tokens ++ ts' := by
  cases items <;> simp [Node.itemTokens]

/-- A first item is read like any other value. -/
theorem build_first {v : Node} {t : Tree} (hv : v.tree? = some t) (stack : List Frame)
    (ts : List Token) :
    build .first (.list [] :: stack) (v.tokens ++ ts)
      = build .value (.list [] :: stack) (v.tokens ++ ts) := by
  cases v <;> first | simp [Node.tree?] at hv; done | simp [Node.tokens, build]

/-- A comma between two items leads to the second one. -/
theorem build_comma {v : Node} {t : Tree} (hv : v.tree? = some t) (items : List Node)
    (stack : List Frame) (ts : List Token) :
    build .next (.list items :: stack) (.comma :: (v.tokens ++ ts))
      = build .value (.list items :: stack) (v.tokens ++ ts) := by
  rw [build]
  simp [closesList_tokens hv]

mutual

/-- In the phase of a value, the tokens of a node make that node. -/
theorem build_tokens (v : Node) {t : Tree} (hv : v.tree? = some t) (stack : List Frame)
    (ts : List Token) : build .value stack (v.tokens ++ ts) = complete v stack ts := by
  match v with
  | .null | .bool _ | .number _ | .text _ => simp [Node.tokens, build, begin, Node.ofToken]
  | .list [] ending =>
    obtain ⟨rfl, -⟩ := Node.tree?_list.mp hv
    simp [Node.tokens, Node.itemTokens, build, begin]
  | .list (v :: items) ending =>
    obtain ⟨rfl, trees, hitems, -⟩ := Node.tree?_list.mp hv
    obtain ⟨_, _, hfirst, -⟩ := trees?_cons.mp hitems
    obtain ⟨ts', hts'⟩ := itemTokens_cons v items (.closeList :: ts)
    have hfill := build_itemTokens v items hitems [] stack ts
    rw [hts'] at hfill
    simp only [Node.tokens, List.cons_append, List.append_assoc, List.nil_append]
    rw [build, begin, hts', build_first hfirst, hfill]
    simp
  | .object [] ending =>
    obtain ⟨rfl, -⟩ := Node.tree?_object.mp hv
    simp [Node.tokens, Node.memberTokens, build, begin]
  | .object ((name, v) :: members) ending =>
    obtain ⟨rfl, trees, hmembers, -⟩ := Node.tree?_object.mp hv
    have hfill := build_memberTokens name v members hmembers .first (.inl rfl) [] stack ts
    simp only [Node.tokens, List.cons_append, List.append_assoc, List.nil_append]
    rw [build, begin, hfill]
    simp
  | .broken _ => simp [Node.tree?] at hv
termination_by sizeOf v

/-- The tokens of items fill an open list, which the next token closes. -/
theorem build_itemTokens (v : Node) (items : List Node) {trees : List Tree}
    (hitems : trees? (v :: items) = some trees) (before : List Node) (stack : List Frame)
    (ts : List Token) :
    build .value (.list before :: stack) (Node.itemTokens (v :: items) ++ .closeList :: ts)
      = complete (.list (before.reverse ++ v :: items) .closed) stack ts := by
  obtain ⟨_, _, hv, hrest, -⟩ := trees?_cons.mp hitems
  match items with
  | [] =>
    rw [Node.itemTokens, build_tokens v hv, complete, Node.intoFrame, build]
    simp
  | w :: items =>
    obtain ⟨ts', hts'⟩ := itemTokens_cons w items (.closeList :: ts)
    obtain ⟨_, _, hw, -⟩ := trees?_cons.mp hrest
    have hfill := build_itemTokens w items hrest (v :: before) stack ts
    rw [hts'] at hfill
    rw [Node.itemTokens, List.append_assoc, build_tokens v hv, complete, Node.intoFrame,
      List.cons_append, hts', build_comma hw, hfill]
    simp
termination_by sizeOf (v :: items)

/-- The tokens of members fill an open object, which the next token closes. -/
theorem build_memberTokens (name : Except Stop String) (v : Node)
    (members : List (Except Stop String × Node)) {trees : List (Option String × Tree)}
    (hmembers : memberTrees? ((name, v) :: members) = some trees)
    (phase : Phase) (hphase : phase = .first ∨ phase = .name)
    (before : List (Except Stop String × Node)) (stack : List Frame) (ts : List Token) :
    build phase (.object before :: stack)
        (Node.memberTokens ((name, v) :: members) ++ .closeObject :: ts)
      = complete (.object (before.reverse ++ (name, v) :: members) .closed) stack ts := by
  obtain ⟨_, _, hv, hrest, -⟩ := memberTrees?_cons.mp hmembers
  -- a name is read alike at the beginning and after a comma
  have hname : ∀ ts', build phase (.object before :: stack) (.text name :: .colon :: ts')
      = build .value (.member before name :: stack) ts' := by
    intro ts'
    obtain rfl | rfl := hphase <;> simp [build]
  match members with
  | [] =>
    rw [Node.memberTokens, List.cons_append, List.cons_append, hname, build_tokens v hv, complete,
      Node.intoFrame, build]
    simp
  | (name', v') :: members =>
    have hfill := build_memberTokens name' v' members hrest .name (.inr rfl) ((name, v) :: before)
      stack ts
    rw [Node.memberTokens, List.cons_append, List.cons_append, hname, List.append_assoc,
      build_tokens v hv, complete, Node.intoFrame, List.cons_append, build, hfill]
    simp
termination_by sizeOf ((name, v) :: members)

end

/-- The document is one value without anything broken, which says this. -/
def Says (d : Document) (t : Tree) : Prop :=
  d.trailing = false ∧ d.root.tree? = some t

/-! What is left open is broken. -/

theorem tree?_unwind {v : Node} (h : v.tree? = none) (stack : List Frame) :
    (v.unwind stack).tree? = none := by
  induction stack generalizing v with
  | nil => exact h
  | cons frame outer ih => cases frame <;> exact ih rfl

theorem tree?_list_open {ending : Ending} (h : ending ≠ .closed) (items : List Node) :
    (Node.list items ending).tree? = none := by
  cases ending with
  | closed => exact absurd rfl h
  | broken | oddName => rfl

theorem tree?_object_open {ending : Ending} (h : ending ≠ .closed)
    (members : List (Except Stop String × Node)) : (Node.object members ending).tree? = none := by
  cases ending with
  | closed => exact absurd rfl h
  | broken | oddName => rfl

theorem tree?_stopIn (ending : Ending) (h : ending ≠ .closed) (stack : List Frame) :
    (Node.stopIn ending stack).tree? = none := by
  cases stack with
  | nil => rfl
  | cons frame outer =>
    cases frame with
    | list items => exact tree?_unwind (tree?_list_open h _) outer
    | object ms => exact tree?_unwind (tree?_object_open h _) outer
    | member ms name => exact tree?_unwind rfl outer

theorem tree?_stopIn_broken (b : Break) (afterComma : Bool) (stack : List Frame) :
    (Node.stopIn (.broken b afterComma) stack).tree? = none :=
  tree?_stopIn (.broken b afterComma) nofun stack

theorem tree?_oddName (t : Token) (afterComma : Bool) (stack : List Frame) :
    (oddName t afterComma stack).tree? = none := by
  have hodd : ∀ v, (Node.stopIn (.oddName v afterComma) stack).tree? = none := fun v =>
    tree?_stopIn (.oddName v afterComma) nofun stack
  unfold oddName
  split
  · split
    · exact tree?_stopIn_broken _ _ stack
    · exact hodd _
  · exact hodd _

theorem tree?_atEnd (phase : Phase) (stack : List Frame) :
    (atEnd phase stack).root.tree? = none := by
  unfold atEnd
  split
  · split
    · rename_i items outer
      exact tree?_stopIn (.broken .atEnd true) nofun (.list items :: outer)
    · exact tree?_unwind rfl stack
  · exact tree?_stopIn_broken _ _ stack
  · exact tree?_stopIn_broken _ _ stack
  · exact tree?_stopIn_broken _ _ stack
  · exact tree?_unwind rfl stack

/-! What has been read. -/

/-- The tokens of some items, a comma after each. -/
def itemsTaken (items : List Node) : List Token :=
  items.flatMap fun v => v.tokens ++ [.comma]

/-- The tokens of some members, a comma after each. -/
def membersTaken (members : List (Except Stop String × Node)) : List Token :=
  members.flatMap fun m => .text m.1 :: .colon :: (m.2.tokens ++ [.comma])

/-- The tokens that an open list or object has taken when a value or a name is due. -/
def frameTokens : Frame → List Token
  | .list items => .openList :: itemsTaken items.reverse
  | .object members => .openObject :: membersTaken members.reverse
  | .member members name => .openObject :: (membersTaken members.reverse ++ [.text name, .colon])

/-- The tokens that the open lists and objects have taken, from the outermost on. -/
def pending (stack : List Frame) : List Token :=
  stack.reverse.flatMap frameTokens

@[simp] theorem pending_nil : pending [] = [] := rfl

@[simp] theorem pending_cons (frame : Frame) (stack : List Frame) :
    pending (frame :: stack) = pending stack ++ frameTokens frame := by
  simp [pending]

/-- The last item has no comma after it. -/
theorem itemTokens_append (items : List Node) (v : Node) :
    Node.itemTokens (items ++ [v]) = itemsTaken items ++ v.tokens := by
  induction items with
  | nil => simp [Node.itemTokens, itemsTaken]
  | cons u items ih =>
    obtain ⟨w, ws, hw⟩ : ∃ w ws, items ++ [v] = w :: ws :=
      List.exists_cons_of_ne_nil (by simp)
    rw [hw] at ih
    rw [List.cons_append, hw, Node.itemTokens, ih]
    simp [itemsTaken]

theorem memberTokens_append (members : List (Except Stop String × Node))
    (name : Except Stop String) (v : Node) :
    Node.memberTokens (members ++ [(name, v)])
      = membersTaken members ++ .text name :: .colon :: v.tokens := by
  induction members with
  | nil => simp [Node.memberTokens, membersTaken]
  | cons u members ih =>
    obtain ⟨w, ws, hw⟩ : ∃ w ws, members ++ [(name, v)] = w :: ws :=
      List.exists_cons_of_ne_nil (by simp)
    rw [hw] at ih
    rw [List.cons_append, hw, Node.memberTokens, ih]
    simp [membersTaken]

/-- A value is due everywhere in the stack. -/
def Due (stack : List Frame) : Prop :=
  ∀ members, Frame.object members ∉ stack

theorem Due.tail {frame : Frame} {stack : List Frame} (h : Due (frame :: stack)) : Due stack :=
  fun members hmem => h members (List.mem_cons_of_mem _ hmem)

theorem Due.list {stack : List Frame} (h : Due stack) (items : List Node) :
    Due (.list items :: stack) := by
  simpa [Due] using h

theorem Due.member {stack : List Frame} (h : Due stack)
    (members : List (Except Stop String × Node)) (name : Except Stop String) :
    Due (.member members name :: stack) := by
  simpa [Due] using h

/-- A document that says something does not end in the middle. -/
theorem not_says_stopIn {b : Break} {afterComma : Bool} {stack : List Frame} {t : Tree} :
    ¬ (Document.mk (.stopIn (.broken b afterComma) stack) false).Says t := fun h => by
  simpa [tree?_stopIn_broken] using h.2

theorem not_says_unwind {b : Break} {stack : List Frame} {t : Tree} :
    ¬ (Document.mk ((Node.broken b).unwind stack) false).Says t := fun h => by
  simpa [tree?_unwind (show (Node.broken b).tree? = none from rfl)] using h.2

theorem not_says_oddName {token : Token} {afterComma : Bool} {stack : List Frame} {t : Tree} :
    ¬ (Document.mk (oddName token afterComma stack) false).Says t := fun h => by
  simpa [tree?_oddName] using h.2

theorem not_says_atEnd {phase : Phase} {stack : List Frame} {t : Tree} :
    ¬ (atEnd phase stack).Says t := fun h => by
  simpa [tree?_atEnd] using h.2

mutual

-- One lemma for each phase of the reader.  What decreases is the number of tokens that are left;
-- the second number orders those that hand over to one another without taking any.

/-- Behind a complete value: whatever follows is used up by the lists and objects around it. -/
theorem tokens_complete {v : Node} {stack : List Frame} {ts : List Token} {t : Tree}
    (hstack : Due stack) (h : (complete v stack ts).Says t) :
    (complete v stack ts).root.tokens = pending stack ++ (v.tokens ++ ts) := by
  match stack, ts with
  | [], ts =>
    rw [complete] at h ⊢
    -- tokens behind the outermost value would be trailing
    obtain rfl : ts = [] := by simpa using h.1
    simp
  | .list _ :: _, [] | .member .. :: _, [] =>
    rw [complete, Node.intoFrame, build] at h
    exact absurd h not_says_atEnd
  | .list items :: outer, .closeList :: ts =>
    rw [complete, Node.intoFrame, build] at h ⊢
    rw [tokens_complete hstack.tail h]
    simp [Node.tokens, itemTokens_append, frameTokens]
  | .list items :: outer, .comma :: ts =>
    rw [complete, Node.intoFrame, build] at h ⊢
    split at h
    · exact absurd h not_says_stopIn
    · rename_i hclose
      rw [if_neg hclose, tokens_value (hstack.tail.list _) h]
      simp [frameTokens, itemsTaken]
  | .list _ :: _, .openList :: _ | .list _ :: _, .openObject :: _ | .list _ :: _, .closeObject :: _
  | .list _ :: _, .colon :: _ | .list _ :: _, .null :: _ | .list _ :: _, .bool _ :: _
  | .list _ :: _, .number _ :: _ | .list _ :: _, .text _ :: _ | .list _ :: _, .broken _ :: _ =>
    simp only [complete, Node.intoFrame, build] at h
    exact absurd h not_says_stopIn
  | .object members :: outer, _ => exact absurd List.mem_cons_self (hstack members)
  | .member members name :: outer, .closeObject :: ts =>
    rw [complete, Node.intoFrame, build] at h ⊢
    rw [tokens_complete hstack.tail h]
    simp [Node.tokens, memberTokens_append, frameTokens]
  | .member members name :: outer, .comma :: ts =>
    rw [complete, Node.intoFrame, build] at h ⊢
    rw [tokens_name .name (.inr rfl) hstack.tail h]
    simp [frameTokens, membersTaken]
  | .member .. :: _, .openList :: _ | .member .. :: _, .openObject :: _
  | .member .. :: _, .closeList :: _ | .member .. :: _, .colon :: _ | .member .. :: _, .null :: _
  | .member .. :: _, .bool _ :: _ | .member .. :: _, .number _ :: _
  | .member .. :: _, .text _ :: _ | .member .. :: _, .broken _ :: _ =>
    simp only [complete, Node.intoFrame, build] at h
    exact absurd h not_says_stopIn
termination_by (ts.length, 1)

theorem tokens_value {stack : List Frame} {ts : List Token} {t : Tree} (hstack : Due stack)
    (h : (build .value stack ts).Says t) :
    (build .value stack ts).root.tokens = pending stack ++ ts := by
  match ts with
  | [] => rw [build] at h; exact absurd h not_says_atEnd
  | token :: ts =>
    rw [build] at h ⊢
    exact tokens_begin hstack h
termination_by (ts.length, 0)

/-- At the first token of a value. -/
theorem tokens_begin {token : Token} {stack : List Frame} {ts : List Token} {t : Tree}
    (hstack : Due stack) (h : (begin token stack ts).Says t) :
    (begin token stack ts).root.tokens = pending stack ++ token :: ts := by
  match token with
  | .openList =>
    rw [begin] at h ⊢
    rw [tokens_first hstack h]
    simp [frameTokens, itemsTaken]
  | .openObject =>
    rw [begin] at h ⊢
    rw [tokens_name .first (.inl ⟨rfl, rfl⟩) hstack h]
    simp [frameTokens, membersTaken]
  | .null | .bool _ | .number _ | .text _ =>
    rw [begin] at h ⊢
    rw [tokens_complete hstack h]
    simp [Node.ofToken, Node.tokens]
  | .broken _ | .closeList | .closeObject | .comma | .colon =>
    rw [begin] at h
    exact absurd h not_says_unwind
termination_by (ts.length, 2)

/-- Behind the opening of a list. -/
theorem tokens_first {stack : List Frame} {ts : List Token} {t : Tree} (hstack : Due stack)
    (h : (build .first (.list [] :: stack) ts).Says t) :
    (build .first (.list [] :: stack) ts).root.tokens = pending (.list [] :: stack) ++ ts := by
  match ts with
  | [] => rw [build] at h; exact absurd h not_says_atEnd
  | .closeList :: ts =>
    rw [build] at h ⊢
    rw [tokens_complete hstack h]
    simp [frameTokens, itemsTaken, Node.tokens, Node.itemTokens]
  | .openList :: ts | .openObject :: ts | .closeObject :: ts | .comma :: ts | .colon :: ts
  | .null :: ts | .bool _ :: ts | .number _ :: ts | .text _ :: ts | .broken _ :: ts =>
    simp only [build] at h ⊢
    exact tokens_begin (hstack.list []) h
termination_by (ts.length, 0)

/-- Behind a name. -/
theorem tokens_colon {members : List (Except Stop String × Node)} {name : Except Stop String}
    {stack : List Frame} {ts : List Token} {t : Tree} (hstack : Due stack)
    (h : (build .colon (.member members name :: stack) ts).Says t) :
    (build .colon (.member members name :: stack) ts).root.tokens
      = pending (.object members :: stack) ++ .text name :: ts := by
  match ts with
  | [] => rw [build] at h; exact absurd h not_says_atEnd
  | .colon :: ts =>
    rw [build] at h ⊢
    rw [tokens_value (hstack.member _ _) h]
    simp [frameTokens]
  | .openList :: _ | .openObject :: _ | .closeList :: _ | .closeObject :: _ | .comma :: _
  | .null :: _ | .bool _ :: _ | .number _ :: _ | .text _ :: _ | .broken _ :: _ =>
    simp only [build] at h
    exact absurd h not_says_unwind
termination_by (ts.length, 0)

/-- Where a name is due, at the beginning of an object or behind a comma. -/
theorem tokens_name (phase : Phase) {members : List (Except Stop String × Node)}
    (hphase : phase = .first ∧ members = [] ∨ phase = .name) {stack : List Frame}
    {ts : List Token} {t : Tree} (hstack : Due stack)
    (h : (build phase (.object members :: stack) ts).Says t) :
    (build phase (.object members :: stack) ts).root.tokens
      = pending (.object members :: stack) ++ ts := by
  match ts with
  | [] => rw [build] at h; exact absurd h not_says_atEnd
  | .closeObject :: ts =>
    obtain ⟨rfl, rfl⟩ | rfl := hphase
    · rw [build] at h ⊢
      rw [tokens_complete hstack h]
      simp [frameTokens, membersTaken, Node.tokens, Node.memberTokens]
    · simp only [build] at h
      exact absurd h not_says_oddName
  | .text name :: ts =>
    have hname : build phase (.object members :: stack) (.text name :: ts)
        = build .colon (.member members name :: stack) ts := by
      obtain ⟨rfl, rfl⟩ | rfl := hphase <;> rw [build]
    rw [hname] at h ⊢
    rw [tokens_colon hstack h]
  | .openList :: _ | .openObject :: _ | .closeList :: _ | .comma :: _ | .colon :: _
  | .null :: _ | .bool _ :: _ | .number _ :: _ | .broken _ :: _ =>
    obtain ⟨rfl, rfl⟩ | rfl := hphase <;> simp only [build] at h <;>
      exact absurd h not_says_oddName
termination_by (ts.length, 0)

end

/-- **The grammar**: a text is read as a whole document that says something exactly when it is a
written form of what it says. -/
theorem read_says_iff {s : List Symbol} {t : Tree} : (read s).Says t ↔ t.Document s := by
  constructor
  · intro h
    have htokens := tokens_value (show Due [] from fun _ => List.not_mem_nil) h
    rw [pending_nil, List.nil_append] at htokens
    obtain ⟨b, w, rest, rfl, hb, hw, hrest⟩ :=
      written_of_lex _ h.2 (htokens.symm.trans (List.append_nil _).symm)
    exact ⟨b, w, rest, rfl, hb, hw, blank_of_lex_nil hrest⟩
  · rintro ⟨b, w, c, rfl, hb, hw, hc⟩
    have hend : Delimited c := by simpa using delimited_blank hc (show Delimited [] from trivial)
    obtain ⟨v, hv, hlex⟩ := lex_of_written hw hend
    have hc' : lex c = [] := by simpa [lex] using lex_blank hc []
    rw [read, lex_blank hb, hlex, hc', build_tokens v hv, complete]
    exact ⟨rfl, hv⟩

end Document

end Rollout.Json
