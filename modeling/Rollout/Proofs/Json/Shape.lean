/-
What a decoder accepts, and what it makes of it, in terms of what the document says.

* `Tree.IsText`, `IsInteger`, `IsList`, `IsNullable`, `IsVariant`: the simple shapes of a tree;
* `Tree.HasFields`: what stands in the places of a record's fields, in an object by name and in a
  list by position;
* `Decides`: a decoder succeeds with a value exactly when the document has nothing broken in it and
  what it says has a shape for that value;
* `Decides.text`, `Decides.list`, `Decides.record` and the others: one for each kind of decoder;
* `decodeText_decides`: from documents to texts.
-/
import Rollout.Json.Decode
import Rollout.Proofs.Json.Tree

namespace Rollout.Json

/-! ### Shapes -/

/-- The literal spells an integer: it has neither a fraction nor an exponent and is not `-0`. -/
def Number.Spells (n : Number) (i : Int) : Prop :=
  n.fraction = none ∧ n.exponent = none ∧ (n.negative = true → ofDigits n.whole ≠ 0)
    ∧ i = if n.negative then -(ofDigits n.whole : Int) else ofDigits n.whole

namespace Tree

variable {α : Type}

def IsText (t : Tree) (s : String) : Prop := t = .text (some s)

def IsBool (t : Tree) (b : Bool) : Prop := t = .bool b

/-- An integer literal within bounds. -/
def IsInteger (low high : Int) (t : Tree) (i : Int) : Prop :=
  ∃ n, t = .number n ∧ n.Spells i ∧ low ≤ i ∧ i ≤ high

/-- A list of such items. -/
def IsList (R : Tree → α → Prop) (t : Tree) (as : List α) : Prop :=
  ∃ ts, t = .list ts ∧ List.Forall₂ R ts as

/-- `null` for nothing. -/
def IsNullable (R : Tree → α → Prop) (t : Tree) : Option α → Prop
  | none => t = .null
  | some a => R t a

/-- A name as a text, or as the only member of an object with `null` under it. -/
def IsVariant (t : Tree) (name : String) : Prop :=
  t = .text (some name) ∨ t = .object [(some name, .null)]

/-- What stands in the places of a record's fields.  In an object that is looked up by name: the
names have to be texts, and none of the record's names may stand there twice.  A list holds the
fields in order and may end early. -/
inductive HasFields (names : List String) : Tree → List (Option Tree) → Prop
  | object {members : List (Option String × Tree)} (readable : ∀ m ∈ members, m.1 ≠ none)
    (once : ∀ name ∈ names, (members.map Prod.fst).count (some name) ≤ 1) :
    HasFields names (.object members) (names.map fun name => members.lookup (some name))
  | list {items : List Tree} (h : items.length ≤ names.length) :
    HasFields names (.list items)
      (items.map some ++ List.replicate (names.length - items.length) none)

theorem hasFields_object_iff {names : List String} {members : List (Option String × Tree)}
    {vs : List (Option Tree)} :
    (object members).HasFields names vs ↔ (∀ m ∈ members, m.1 ≠ none)
      ∧ (∀ name ∈ names, (members.map Prod.fst).count (some name) ≤ 1)
      ∧ vs = names.map fun name => members.lookup (some name) := by
  constructor
  · intro h
    cases h with
    | object readable once => exact ⟨readable, once, rfl⟩
  · rintro ⟨readable, once, rfl⟩
    exact .object readable once

theorem hasFields_list_iff {names : List String} {items : List Tree} {vs : List (Option Tree)} :
    (list items).HasFields names vs ↔ items.length ≤ names.length
      ∧ vs = items.map some ++ List.replicate (names.length - items.length) none := by
  constructor
  · intro h
    cases h with
    | list h => exact ⟨h, rfl⟩
  · rintro ⟨h, rfl⟩
    exact .list h

theorem lookup_eq_of_perm {members members' : List (Option String × Tree)}
    (h : members.Perm members') {key : Option String}
    (hcount : (members.map Prod.fst).count key ≤ 1) :
    members.lookup key = members'.lookup key := by
  induction h with
  | nil => rfl
  | cons m _ ih =>
    obtain ⟨k, t⟩ := m
    rw [List.map_cons, List.count_cons] at hcount
    rw [List.lookup_cons, List.lookup_cons, ih (by omega)]
  | swap m n ms =>
    obtain ⟨k, t⟩ := m
    obtain ⟨l, u⟩ := n
    simp only [List.lookup_cons]
    simp only [List.map_cons, List.count_cons, beq_iff_eq] at hcount
    cases hk : key == k with
    | false => cases key == l <;> rfl
    | true =>
      cases hl : key == l with
      | false => rfl
      | true =>
        rw [if_pos (beq_iff_eq.mp hk).symm, if_pos (beq_iff_eq.mp hl).symm] at hcount
        omega
  | trans h₁ _ ih₁ ih₂ =>
    rw [ih₁ hcount, ih₂ ((h₁.map Prod.fst).count_eq key ▸ hcount)]

/-- The order of the members of an object does not matter. -/
theorem HasFields.perm {names : List String} {members members' : List (Option String × Tree)}
    {vs : List (Option Tree)} (h : members.Perm members')
    (hfields : (Tree.object members).HasFields names vs) :
    (Tree.object members').HasFields names vs := by
  obtain ⟨readable, once, rfl⟩ := hasFields_object_iff.mp hfields
  refine hasFields_object_iff.mpr ⟨fun m hm => readable m (h.mem_iff.mpr hm), fun name hname => ?_,
    List.map_congr_left fun name hname => lookup_eq_of_perm h (once name hname)⟩
  rw [← (h.map Prod.fst).count_eq]
  exact once name hname

/-- Nor do members whose names the record does not have. -/
theorem hasFields_cons_iff {names : List String} {members : List (Option String × Tree)}
    {vs : List (Option Tree)} {name : String} (hname : name ∉ names) (t : Tree) :
    (object ((some name, t) :: members)).HasFields names vs
      ↔ (object members).HasFields names vs := by
  have hne : ∀ other ∈ names, (some name == some other) = false := fun other hother =>
    beq_false_of_ne fun h => hname (Option.some.inj h ▸ hother)
  have hlookup : (names.map fun n => ((some name, t) :: members).lookup (some n))
      = names.map fun n => members.lookup (some n) :=
    List.map_congr_left fun n hn => by
      rw [List.lookup_cons, BEq.comm, hne n hn]
  have hcount : (∀ n ∈ names, (((some name, t) :: members).map Prod.fst).count (some n) ≤ 1)
      ↔ ∀ n ∈ names, (members.map Prod.fst).count (some n) ≤ 1 :=
    forall₂_congr fun n hn => by
      rw [List.map_cons, List.count_cons, hne n hn]
      rfl
  rw [hasFields_object_iff, hasFields_object_iff, hlookup, hcount, List.forall_mem_cons]
  simp

/-- The place of a field that must be there. -/
def Required (R : Tree → α → Prop) : Option Tree → α → Prop
  | none, _ => False
  | some t, a => R t a

/-- The place of a field with a default. -/
def Defaulted (default : α) (R : Tree → α → Prop) : Option Tree → α → Prop
  | none, a => a = default
  | some t, a => R t a

end Tree

open Rollout.Json.Tree

/-- The decoder gives a value exactly for a document that says something of this shape. -/
def Decides (item : Decoder α) (R : Tree → α → Prop) : Prop :=
  ∀ v a, item v = .ok a ↔ ∃ t, v.tree? = some t ∧ R t a

/-- A text is decided by what it says as a document. -/
theorem decodeText_decides {item : Decoder α} {R : Tree → α → Prop} (h : Decides item R)
    {s : String} {a : α} :
    decodeText item s = .ok a ↔ ∃ t : Tree, t.Document (symbols s) ∧ R t a := by
  have hdecode : decodeText item s = .ok a
      ↔ (Document.ofText s).trailing = false ∧ item (Document.ofText s).root = .ok a := by
    rw [decodeText, Document.decode, bind_eq_ok_iff]
    constructor
    · rintro ⟨b, hb, htrailing⟩
      split at htrailing
      · nomatch htrailing
      · rename_i hnot
        cases htrailing
        exact ⟨by simpa using hnot, hb⟩
    · rintro ⟨htrailing, ha⟩
      exact ⟨a, ha, by simp [htrailing]⟩
  rw [hdecode, h]
  constructor
  · rintro ⟨htrailing, t, ht, ha⟩
    exact ⟨t, Document.read_says_iff.mp ⟨htrailing, ht⟩, ha⟩
  · rintro ⟨t, ht, ha⟩
    obtain ⟨htrailing, htree⟩ := Document.read_says_iff.mpr ht
    exact ⟨htrailing, t, htree, ha⟩

/-! ### Simple decoders -/

/-- A literal is read as an integer when it spells one that 64 bits hold. -/
theorem Number.meaning_eq_int_iff {n : Number} {i : Int} :
    n.meaning = .int i ↔ n.Spells i ∧ -(greatestNegated : Int) ≤ i ∧ i ≤ maxUnsigned := by
  obtain ⟨negative, whole, fraction, exponent⟩ := n
  unfold meaning Spells
  cases fraction <;> cases exponent <;> cases negative <;> simp
  case none.none.false =>
    split
    · rw [Meaning.int.injEq]
      omega
    · -- what is not held as an integer is a float or out of range
      refine ⟨fun h => ?_, fun h => by omega⟩
      split at h <;> cases h
  case none.none.true =>
    split
    · rw [Meaning.int.injEq]
      omega
    · refine ⟨fun h => ?_, fun h => by omega⟩
      split at h <;> cases h
  all_goals
    intro h
    split at h <;> cases h

namespace Decides

theorem congr {item : Decoder α} {R R' : Tree → α → Prop} (h : Decides item R)
    (hR : ∀ t a, R t a ↔ R' t a) : Decides item R' := fun v a => by
  rw [h v a]
  simp only [hR]

theorem map {item : Decoder α} {R : Tree → α → Prop} (h : Decides item R) (f : α → β) :
    Decides (Decoder.map f item) fun t b => ∃ a, R t a ∧ f a = b := fun v b => by
  have hmap : Decoder.map f item v = .ok b ↔ ∃ a, item v = .ok a ∧ f a = b := by
    rw [Decoder.map]
    cases item v <;> simp [Functor.map, Except.map]
  rw [hmap]
  constructor
  · rintro ⟨a, ha, rfl⟩
    obtain ⟨t, ht, hR⟩ := (h v a).mp ha
    exact ⟨t, ht, a, hR, rfl⟩
  · rintro ⟨t, ht, a, hR, rfl⟩
    exact ⟨a, (h v a).mpr ⟨t, ht, hR⟩, rfl⟩

theorem text : Decides Decoder.text IsText := fun v s => by
  unfold IsText
  cases v with
  | text value => cases value <;> simp [Decoder.text, Node.tree?, Except.toOption]
  | list | object => simp [Decoder.text, Node.tree?_list, Node.tree?_object]
  | null | bool | number | broken => simp [Decoder.text, Node.tree?]

theorem bool : Decides Decoder.bool IsBool := fun v b => by
  unfold IsBool
  cases v with
  | list | object => simp [Decoder.bool, Node.tree?_list, Node.tree?_object]
  | null | bool | number | text | broken => simp [Decoder.bool, Node.tree?]

theorem integer {low high : Int} (expected : String) (hlow : -(Number.greatestNegated : Int) ≤ low)
    (hhigh : high ≤ Number.maxUnsigned) :
    Decides (Decoder.integer low high expected) (IsInteger low high) := fun v i => by
  unfold IsInteger
  cases v with
  | number n =>
    simp only [Node.tree?, Option.some.injEq, exists_eq_left', Tree.number.injEq, Decoder.integer]
    have hmeaning := Number.meaning_eq_int_iff (n := n) (i := i)
    constructor
    · intro h
      split at h
      · rename_i j hj
        split at h
        · rename_i hbounds
          obtain rfl : j = i := by simpa using h
          exact ⟨(hmeaning.mp hj).1, hbounds⟩
        · nomatch h
      · nomatch h
      · nomatch h
    · rintro ⟨hspells, hbounds⟩
      rw [hmeaning.mpr ⟨hspells, by omega, by omega⟩]
      exact if_pos hbounds
  | list | object => simp [Decoder.integer, Node.tree?_list, Node.tree?_object]
  | null | bool | text | broken => simp [Decoder.integer, Node.tree?]

theorem natural {bound : Nat} (expected : String) (hbound : bound ≤ Number.maxUnsigned) :
    Decides (Decoder.natural bound expected) fun t n => IsInteger 0 (bound - 1) t n := fun v n => by
  have hinteger : Decides (Decoder.integer 0 (bound - 1) expected) (IsInteger 0 (bound - 1)) :=
    integer expected (by omega) (by omega)
  have hnatural : Decoder.natural bound expected v = .ok n
      ↔ Decoder.integer 0 (bound - 1) expected v = .ok (n : Int) := by
    have hpositive : ∀ i, Decoder.integer 0 (bound - 1) expected v = .ok i → 0 ≤ i := by
      intro i hi
      obtain ⟨_, _, _, _, _, h, _⟩ := (hinteger v i).mp hi
      exact h
    rw [Decoder.natural]
    cases hi : Decoder.integer 0 (bound - 1) expected v with
    | error f => simp [Except.map]
    | ok i =>
      have := hpositive i hi
      simp only [Except.map, Except.ok.injEq]
      omega
  rw [hnatural, hinteger]

theorem items {item : Decoder α} {R : Tree → α → Prop} (h : Decides item R) (vs : List Node)
    (index : Nat) (as : List α) :
    Decoder.items item index vs = .ok as ↔ ∃ ts, trees? vs = some ts ∧ List.Forall₂ R ts as := by
  induction vs generalizing index as with
  | nil =>
    simp [Decoder.items, trees?, eq_comm]
  | cons v vs ih =>
    rw [Decoder.items, bind_eq_ok_iff]
    simp only [mapError_eq_ok_iff, bind_eq_ok_iff, ih]
    constructor
    · rintro ⟨a, ha, as, ⟨ts, hts, has⟩, h'⟩
      obtain rfl := Except.ok.inj h'
      obtain ⟨t, ht, hR⟩ := (h v a).mp ha
      exact ⟨t :: ts, trees?_cons.mpr ⟨t, ts, ht, hts, rfl⟩, .cons hR has⟩
    · rintro ⟨_, htrees, has⟩
      obtain ⟨t, ts, ht, hts, rfl⟩ := trees?_cons.mp htrees
      cases has with
      | @cons _ a _ as hR has =>
        exact ⟨a, (h v a).mpr ⟨t, ht, hR⟩, as, ⟨ts, hts, has⟩, rfl⟩

theorem closed_eq_ok_iff {ending : Ending} : Decoder.closed ending = .ok () ↔ ending = .closed := by
  cases ending <;> simp [Decoder.closed]

theorem list {item : Decoder α} {R : Tree → α → Prop} (h : Decides item R) :
    Decides (Decoder.list item) (IsList R) := fun v as => by
  unfold IsList
  cases v with
  | list vs ending =>
    simp only [Decoder.list, bind_eq_ok_iff, items h, Node.tree?_list]
    constructor
    · rintro ⟨as, ⟨ts, hts, has⟩, _, hclosed, h'⟩
      obtain rfl := Except.ok.inj h'
      exact ⟨.list ts, ⟨closed_eq_ok_iff.mp hclosed, ts, hts, rfl⟩, ts, rfl, has⟩
    · rintro ⟨_, ⟨hclosed, ts, hts, rfl⟩, ts', h', has⟩
      obtain rfl := Tree.list.inj h'
      exact ⟨as, ⟨ts, hts, has⟩, (), closed_eq_ok_iff.mpr hclosed, rfl⟩
  | object => simp [Decoder.list, Node.tree?_object]
  | null | bool | number | text | broken => simp [Decoder.list, Node.tree?]

/-- An optional value; `null` has to be free for it. -/
theorem optional {item : Decoder α} {R : Tree → α → Prop} (h : Decides item R)
    (hnull : ∀ a, ¬ R .null a) : Decides (Decoder.optional item) (IsNullable R) := fun v o => by
  have hmap : (item v).map some = .ok o ↔ ∃ t, v.tree? = some t ∧ ∃ a, R t a ∧ some a = o :=
    h.map some v o
  -- what is not `null` is left to the decoder
  have hother : v.tree? ≠ some .null →
      ((item v).map some = .ok o ↔ ∃ t, v.tree? = some t ∧ IsNullable R t o) := by
    intro hv
    rw [hmap]
    cases o with
    | none =>
      simp only [reduceCtorEq, and_false, exists_false, IsNullable, false_iff, not_exists, not_and]
      rintro t ht rfl
      exact hv ht
    | some a => simp [IsNullable]
  cases v with
  | null =>
    cases o with
    | none => simp [Decoder.optional, Node.tree?, IsNullable]
    | some a => simp [Decoder.optional, Node.tree?, IsNullable, hnull]
  | broken b =>
    have hitem : ∀ o, (item (.broken b)).map some ≠ .ok o := by
      intro o ho
      obtain ⟨t, ht, -⟩ := (h.map some _ o).mp ho
      simp [Node.tree?] at ht
    simp only [Node.tree?, reduceCtorEq, false_and, exists_false, iff_false]
    unfold Decoder.optional
    split
    · simp_all
    · simp
    · exact hitem o
  | bool | number | text => exact hother (by simp [Node.tree?])
  | list items ending =>
    refine hother fun hnull => ?_
    obtain ⟨-, _, -, h⟩ := Node.tree?_list.mp hnull
    nomatch h
  | object members ending =>
    refine hother fun hnull => ?_
    obtain ⟨-, _, -, h⟩ := Node.tree?_object.mp hnull
    nomatch h

theorem variantName_eq_ok_iff {known : List (String × α)} {name : String} {a : α} :
    Decoder.variantName known name = .ok a ↔ known.lookup name = some a := by
  rw [Decoder.variantName]
  cases known.lookup name <;> simp

theorem afterOnlyMember_eq_ok_iff {ending : Ending} :
    Decoder.afterOnlyMember ending = .ok () ↔ ending = .closed := by
  cases ending with
  | closed | oddName => simp [Decoder.afterOnlyMember]
  | broken b afterComma => cases afterComma <;> simp [Decoder.afterOnlyMember]

theorem tree?_eq_null_iff {v : Node} : v.tree? = some .null ↔ v = .null := by
  cases v with
  | list | object => simp [Node.tree?_list, Node.tree?_object]
  | null | bool | number | text | broken => simp [Node.tree?]

/-- An object with a single member, which is a name over `null`. -/
theorem memberTrees?_single {name : Except Stop String} {v : Node}
    {more : List (Except Stop String × Node)} {s : String} :
    memberTrees? ((name, v) :: more) = some [(some s, .null)]
      ↔ name = .ok s ∧ v = .null ∧ more = [] := by
  have hname : name.toOption = some s ↔ name = .ok s := by
    cases name <;> simp [Except.toOption]
  have hmore : memberTrees? more = some [] ↔ more = [] := by
    cases more with
    | nil => simp [memberTrees?]
    | cons m more =>
      obtain ⟨_, _⟩ := m
      simp [memberTrees?_cons]
  rw [memberTrees?_cons]
  constructor
  · rintro ⟨t, rest, ht, hrest, h⟩
    obtain ⟨⟨hs, rfl⟩, rfl⟩ : (some s = name.toOption ∧ .null = t) ∧ [] = rest := by simpa using h
    exact ⟨hname.mp hs.symm, tree?_eq_null_iff.mp ht, hmore.mp hrest⟩
  · rintro ⟨rfl, rfl, rfl⟩
    exact ⟨.null, [], rfl, rfl, rfl⟩

theorem variant_object_eq_ok_iff {known : List (String × α)}
    {members : List (Except Stop String × Node)} {ending : Ending} {a : α} :
    Decoder.variant known (.object members ending) = .ok a ↔ ∃ name,
      known.lookup name = some a ∧ ending = .closed
        ∧ memberTrees? members = some [(some name, .null)] := by
  cases members with
  | nil => cases ending <;> simp [Decoder.variant, memberTrees?]
  | cons m more =>
    obtain ⟨name, v⟩ := m
    simp only [memberTrees?_single]
    cases name with
    | error e => simp [Decoder.variant, Except.mapError, bind_eq_ok_iff]
    | ok s =>
      rw [Decoder.variant, bind_eq_ok_iff]
      simp only [bind_eq_ok_iff, variantName_eq_ok_iff]
      constructor
      · rintro ⟨s', hs, b, hb, h⟩
        obtain rfl : s = s' := by simpa [Except.mapError] using hs
        split at h
        · cases more with
          | nil =>
            obtain ⟨⟨_, hend⟩, rfl⟩ : (∃ u, Decoder.afterOnlyMember ending = .ok u) ∧ b = a := by
              simpa [bind_eq_ok_iff] using h
            exact ⟨s, hb, afterOnlyMember_eq_ok_iff.mp hend, rfl, rfl, rfl⟩
          | cons => simp [bind_eq_ok_iff] at h
        · simp [bind_eq_ok_iff] at h
      · rintro ⟨_, ha, rfl, h, rfl, rfl⟩
        cases h
        exact ⟨s, rfl, a, ha, rfl⟩

/-- One of some names, written in one of the two ways. -/
theorem variant {known : List (String × α)} :
    Decides (Decoder.variant known) fun t a =>
      ∃ name, known.lookup name = some a ∧ t.IsVariant name := fun v a => by
  unfold IsVariant
  cases v with
  | text value =>
    cases value with
    | ok name => simp [Decoder.variant, Node.tree?, Except.toOption, variantName_eq_ok_iff]
    | error e => simp [Decoder.variant, Node.tree?, Except.toOption]
  | object members ending =>
    rw [variant_object_eq_ok_iff]
    constructor
    · rintro ⟨name, ha, hclosed, hmembers⟩
      exact ⟨_, Node.tree?_object.mpr ⟨hclosed, _, hmembers, rfl⟩, name, ha, .inr rfl⟩
    · rintro ⟨t, ht, name, ha, hname⟩
      obtain ⟨hclosed, ts, hts, rfl⟩ := Node.tree?_object.mp ht
      obtain rfl : ts = [(some name, .null)] := by simpa using hname
      exact ⟨name, ha, hclosed, hts⟩
  | list => simp [Decoder.variant, Node.tree?_list]
  | null | bool | number | broken => simp [Decoder.variant, Node.tree?]

end Decides

/-! ### Passing over -/

mutual

theorem pass_eq_ok_iff (v : Node) : v.pass = .ok () ↔ ∃ t, v.tree? = some t := by
  have hending : ∀ ending : Ending, ending.pass = .ok () ↔ ending = .closed := fun ending => by
    cases ending <;> simp [Ending.pass]
  match v with
  | .null | .bool _ | .number _ | .text _ | .broken _ => simp [Node.pass, Node.tree?]
  | .list items ending =>
    rw [Node.pass, check_bind_eq_ok_iff, hending, passItems_eq_ok_iff items]
    simp [Node.tree?_list, and_comm]
  | .object members ending =>
    rw [Node.pass, check_bind_eq_ok_iff, hending, passMembers_eq_ok_iff members]
    simp [Node.tree?_object, and_comm]

theorem passItems_eq_ok_iff (vs : List Node) :
    passItems vs = .ok () ↔ ∃ ts, trees? vs = some ts := by
  match vs with
  | [] => simp [passItems, trees?]
  | v :: vs =>
    rw [passItems, check_bind_eq_ok_iff, pass_eq_ok_iff v, passItems_eq_ok_iff vs]
    simp [trees?_cons]

theorem passMembers_eq_ok_iff (ms : List (Except Stop String × Node)) :
    passMembers ms = .ok () ↔ ∃ ts, memberTrees? ms = some ts := by
  match ms with
  | [] => simp [passMembers, memberTrees?]
  | (name, v) :: ms =>
    rw [passMembers, check_bind_eq_ok_iff, pass_eq_ok_iff v, passMembers_eq_ok_iff ms]
    simp [memberTrees?_cons]

end

end Rollout.Json
