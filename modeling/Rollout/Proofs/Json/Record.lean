/-
Which documents are read as a record.

* `Fields.Decides`: some fields of a record succeed exactly for what stands in their places;
* `Fields.Decides.required`, `Fields.Decides.field`, put together by `Fields.Decides.map` and
  `Fields.Decides.seq`;
* `fileMembers_iff`, `fileMembers_found`: the members of an object are filed without a fault when
  no name of the record stands there twice and all else can be passed over, and each then is where
  look-up finds it;
* `Decides.record`: from the fields to the record, in an object and in a list.
-/
import Rollout.Proofs.Json.Shape

namespace Rollout.Json

open Rollout.Json.Tree

/-! ### Fields -/

/-- The slots from an offset on say this; `none` for a field that is not there. -/
def Slots.Say (slots : Slots) (offset : Nat) (vs : List (Option Tree)) : Prop :=
  ∀ i (h : i < vs.length), slots.found[offset + i]?.join.map (·.value.tree?) = vs[i].map some

theorem Slots.say_append {slots : Slots} {offset : Nat} {vs ws : List (Option Tree)} :
    slots.Say offset (vs ++ ws) ↔ slots.Say offset vs ∧ slots.Say (offset + vs.length) ws := by
  constructor
  · intro h
    refine ⟨fun i hi => ?_, fun i hi => ?_⟩
    · have := h i (by simp; omega)
      rwa [List.getElem_append_left hi] at this
    · have := h (vs.length + i) (by simp; omega)
      rw [List.getElem_append_right (by omega)] at this
      simpa [Nat.add_assoc] using this
  · rintro ⟨hvs, hws⟩ i hi
    rcases Nat.lt_or_ge i vs.length with hlt | hge
    · rw [List.getElem_append_left hlt]
      exact hvs i hlt
    · rw [List.getElem_append_right hge]
      have := hws (i - vs.length) (by simp at hi; omega)
      rwa [show offset + vs.length + (i - vs.length) = offset + i by omega] at this

theorem Slots.say_singleton {slots : Slots} {offset : Nat} {v : Option Tree} :
    slots.Say offset [v] ↔ slots.found[offset]?.join.map (·.value.tree?) = v.map some := by
  constructor
  · intro h
    simpa using h 0 (by simp)
  · intro h i hi
    obtain rfl : i = 0 := by simpa using hi
    simpa using h

/-- The fields give a value exactly for slots that say something of this shape. -/
structure Fields.Decides (fields : Fields α) (R : List (Option Tree) → α → Prop) : Prop where
  length : ∀ vs a, R vs a → vs.length = fields.names.length
  read : ∀ offset slots a,
    fields.read offset slots = .ok a ↔ ∃ vs, slots.Say offset vs ∧ R vs a

/-- A single place. -/
inductive Single (R : Option Tree → α → Prop) : List (Option Tree) → α → Prop
  | intro {v : Option Tree} {a : α} (h : R v a) : Single R [v] a

/-- The same places for the image of a value. -/
inductive Mapped (f : α → β) (R : List (Option Tree) → α → Prop) : List (Option Tree) → β → Prop
  | intro {vs : List (Option Tree)} {a : α} (h : R vs a) : Mapped f R vs (f a)

/-- The places of a function and of its argument, one after another. -/
inductive Applied (F : List (Option Tree) → (α → β) → Prop) (R : List (Option Tree) → α → Prop) :
    List (Option Tree) → β → Prop
  | intro {us ws : List (Option Tree)} {f : α → β} {a : α} (hf : F us f) (ha : R ws a) :
    Applied F R (us ++ ws) (f a)

/-- The place of the first argument. -/
theorem Applied.first {R : Option Tree → α → Prop} {f : α → β} {v : Option Tree} {a : α}
    (h : R v a) : Mapped f (Single R) [v] (f a) :=
  .intro (.intro h)

/-- The place of one more argument. -/
theorem Applied.also {F : List (Option Tree) → (α → β) → Prop} {R : Option Tree → α → Prop}
    {us : List (Option Tree)} {v : Option Tree} {f : α → β} {a : α} (hf : F us f) (h : R v a) :
    Applied F (Single R) (us ++ [v]) (f a) :=
  .intro hf (.intro h)

namespace Fields.Decides

theorem map {fields : Fields α} {R : List (Option Tree) → α → Prop} (h : fields.Decides R)
    (f : α → β) : (f <$> fields).Decides (Mapped f R) where
  length := by
    rintro vs _ ⟨ha⟩
    exact h.length vs _ ha
  read offset slots b := by
    have hmap : (f <$> fields).read offset slots = .ok b
        ↔ ∃ a, fields.read offset slots = .ok a ∧ f a = b := by
      change (fields.read offset slots).map f = _ ↔ _
      cases fields.read offset slots <;> simp [Except.map]
    rw [hmap]
    constructor
    · rintro ⟨a, ha, rfl⟩
      obtain ⟨vs, hsay, hR⟩ := (h.read _ _ _).mp ha
      exact ⟨vs, hsay, .intro hR⟩
    · rintro ⟨vs, hsay, ⟨hR⟩⟩
      exact ⟨_, (h.read _ _ _).mpr ⟨vs, hsay, hR⟩, rfl⟩

theorem seq {f : Fields (α → β)} {x : Fields α} {F : List (Option Tree) → (α → β) → Prop}
    {R : List (Option Tree) → α → Prop} (hf : f.Decides F) (hx : x.Decides R) :
    (f <*> x).Decides (Applied F R) where
  length := by
    rintro _ _ ⟨hF, hR⟩
    change _ = (f.names ++ x.names).length
    simp [hf.length _ _ hF, hx.length _ _ hR]
  read offset slots b := by
    have hseq : (f <*> x).read offset slots = .ok b ↔ ∃ g a, f.read offset slots = .ok g
        ∧ x.read (offset + f.names.length) slots = .ok a ∧ g a = b := by
      change both (f.read offset slots) (x.read (offset + f.names.length) slots) = _ ↔ _
      cases f.read offset slots <;> cases x.read (offset + f.names.length) slots <;> simp [both]
    rw [hseq]
    constructor
    · rintro ⟨g, a, hg, ha, rfl⟩
      obtain ⟨us, hus, hF⟩ := (hf.read _ _ _).mp hg
      obtain ⟨ws, hws, hR⟩ := (hx.read _ _ _).mp ha
      rw [← hf.length us g hF] at hws
      exact ⟨us ++ ws, Slots.say_append.mpr ⟨hus, hws⟩, .intro hF hR⟩
    · rintro ⟨_, hsay, ⟨hF, hR⟩⟩
      obtain ⟨hus, hws⟩ := Slots.say_append.mp hsay
      rw [hf.length _ _ hF] at hws
      exact ⟨_, _, (hf.read _ _ _).mpr ⟨_, hus, hF⟩, (hx.read _ _ _).mpr ⟨_, hws, hR⟩, rfl⟩

theorem ofSlot_eq_ok_iff {item : Decoder α} {slot : Slot} {a : α} :
    ofSlot item slot = .ok a ↔ item slot.value = .ok a := by
  rw [ofSlot, mapError_eq_ok_iff]

/-- A field that may not be left out. -/
theorem required {item : Decoder α} {R : Tree → α → Prop} (name : String)
    (h : Json.Decides item R) :
    (Fields.required name item).Decides (Single (Required R)) where
  length := by
    rintro _ _ ⟨-⟩
    rfl
  read offset slots a := by
    simp only [Fields.required]
    constructor
    · intro hread
      split at hread
      · rename_i slot hslot
        obtain ⟨t, ht, hR⟩ := (h _ _).mp (ofSlot_eq_ok_iff.mp hread)
        exact ⟨[some t], Slots.say_singleton.mpr (by simp [hslot, ht]), .intro hR⟩
      · nomatch hread
    · rintro ⟨_, hsay, @⟨v, _, hR⟩⟩
      rw [Slots.say_singleton] at hsay
      cases v with
      | none => exact hR.elim
      | some t =>
        obtain ⟨slot, hslot, ht⟩ := Option.map_eq_some_iff.mp hsay
        rw [hslot]
        exact ofSlot_eq_ok_iff.mpr ((h _ _).mpr ⟨t, ht, hR⟩)

/-- A field with a default. -/
theorem field {item : Decoder α} {R : Tree → α → Prop} (name : String) (default : α)
    (h : Json.Decides item R) :
    (Fields.field name item default).Decides (Single (Defaulted default R)) where
  length := by
    rintro _ _ ⟨-⟩
    rfl
  read offset slots a := by
    simp only [Fields.field]
    constructor
    · intro hread
      split at hread
      · rename_i slot hslot
        obtain ⟨t, ht, hR⟩ := (h _ _).mp (ofSlot_eq_ok_iff.mp hread)
        exact ⟨[some t], Slots.say_singleton.mpr (by simp [hslot, ht]), .intro hR⟩
      · rename_i hslot
        exact ⟨[none], Slots.say_singleton.mpr (by simp [hslot]),
          .intro (Except.ok.inj hread).symm⟩
    · rintro ⟨_, hsay, @⟨v, _, hR⟩⟩
      rw [Slots.say_singleton] at hsay
      cases v with
      | none =>
        obtain rfl : a = default := hR
        rw [Option.map_eq_none_iff.mp hsay]
      | some t =>
        obtain ⟨slot, hslot, ht⟩ := Option.map_eq_some_iff.mp hsay
        rw [hslot]
        exact ofSlot_eq_ok_iff.mpr ((h _ _).mpr ⟨t, ht, hR⟩)

end Fields.Decides

/-! ### Filing members -/

/-- Members whose names can be read. -/
def named (ms : List (String × Node)) : List (Except Stop String × Node) :=
  ms.map fun m => (.ok m.1, m.2)

/-- The node in a place. -/
def filed (found : List (Option Slot)) (i : Nat) : Option Node :=
  found[i]?.join.map Slot.value

theorem exists_named {names : List String} {position : Nat} {found : List (Option Slot)}
    {members : List (Except Stop String × Node)}
    (h : (fileMembers names position found members).2 = none) : ∃ ms, members = named ms := by
  induction members generalizing position found with
  | nil => exact ⟨[], rfl⟩
  | cons m members ih =>
    obtain ⟨name, v⟩ := m
    cases name with
    | error s => simp [fileMembers] at h
    | ok name =>
      have hrest : ∃ ms, members = named ms := by
        rw [fileMembers] at h
        split at h
        · split at h
          · nomatch h
          · exact ih h
        · split at h
          · nomatch h
          · exact ih h
      obtain ⟨ms, rfl⟩ := hrest
      exact ⟨(name, v) :: ms, rfl⟩

theorem positionOf?_eq_some {names : List String} {name : String} {i : Nat}
    (h : positionOf? names name = some i) : ∃ hi : i < names.length, names[i] = name := by
  obtain ⟨hi, hname, -⟩ := List.findIdx?_eq_some_iff_getElem.mp h
  exact ⟨hi, by simpa using hname⟩

theorem positionOf?_eq_none {names : List String} {name : String}
    (h : positionOf? names name = none) : name ∉ names := by
  have hall := List.findIdx?_eq_none_iff.mp h
  intro hmem
  simpa using hall name hmem

theorem filed_set {found : List (Option Slot)} {i : Nat} (hi : i < found.length) (slot : Slot)
    (j : Nat) :
    filed (found.set i (some slot)) j = if j = i then some slot.value else filed found j := by
  unfold filed
  rw [List.getElem?_set]
  by_cases hj : j = i
  · subst j
    simp [hi]
  · rw [if_neg (Ne.symm hj), if_neg hj]

/-- Members are filed without a fault when no place is filled twice and all that has no place can
be passed over. -/
theorem fileMembers_iff {names : List String} (hnames : names.Nodup) (ms : List (String × Node))
    (position : Nat) (found : List (Option Slot)) (hfound : found.length = names.length) :
    (fileMembers names position found (named ms)).2 = none ↔
      (∀ m ∈ ms, m.1 ∉ names → m.2.pass = .ok ())
      ∧ ∀ i (h : i < names.length),
          (ms.map Prod.fst).count names[i] + (if (filed found i).isSome then 1 else 0) ≤ 1 := by
  induction ms generalizing position found with
  | nil =>
    simp only [named, List.map_nil, fileMembers, List.not_mem_nil, false_implies, implies_true,
      List.count_nil, true_and, true_iff]
    intro i hi
    split <;> omega
  | cons m ms ih =>
    obtain ⟨name, v⟩ := m
    rw [named, List.map_cons, ← named, fileMembers]
    simp only [List.forall_mem_cons, List.map_cons, List.count_cons, beq_iff_eq]
    split
    · rename_i i hposition
      obtain ⟨hi, rfl⟩ := positionOf?_eq_some hposition
      split
      · -- the place is taken, and so the name counts twice
        rename_i hfilled
        have hfilled' : (filed found i).isSome := by simpa [filed] using hfilled
        constructor
        · intro h
          nomatch h
        · rintro ⟨-, hcount⟩
          have := hcount i hi
          rw [if_pos rfl, if_pos hfilled'] at this
          omega
      · rename_i hfree
        have hfree' : ¬ (filed found i).isSome := by simpa [filed] using hfree
        rw [ih _ _ (by simpa using hfound)]
        refine and_congr ?_ (forall₂_congr fun j hj => ?_)
        · simp
        · rw [filed_set (by omega)]
          by_cases hji : j = i
          · subst j
            simp [hfree']
          · have hne : names[i] ≠ names[j] := fun h =>
              hji ((hnames.getElem_inj_iff.mp h).symm)
            simp [hji, hne]
    · rename_i hposition
      have hname := positionOf?_eq_none hposition
      have hne : ∀ j (hj : j < names.length), name ≠ names[j] := fun j hj h =>
        hname (h ▸ List.getElem_mem hj)
      split
      · rename_i hpass
        simp [hname, hpass]
      · rename_i hpass
        rw [ih _ _ hfound]
        refine and_congr ?_ (forall₂_congr fun j hj => ?_)
        · simp [hname, hpass]
        · simp [hne j hj]

/-- Each place then holds what it held before, or what look-up finds. -/
theorem fileMembers_found {names : List String} (hnames : names.Nodup) (ms : List (String × Node))
    (position : Nat) (found : List (Option Slot)) (hfound : found.length = names.length)
    (h : (fileMembers names position found (named ms)).2 = none) (i : Nat) (hi : i < names.length) :
    filed (fileMembers names position found (named ms)).1 i
      = (filed found i).or (ms.lookup names[i]) := by
  induction ms generalizing position found with
  | nil => simp [named, fileMembers]
  | cons m ms ih =>
    obtain ⟨name, v⟩ := m
    rw [named, List.map_cons, ← named, fileMembers] at h ⊢
    split at h
    · rename_i j hposition
      obtain ⟨hj, rfl⟩ := positionOf?_eq_some hposition
      split at h
      · nomatch h
      · rename_i hfree
        have hfree' : filed found j = none := by simpa [filed] using hfree
        simp only [if_neg hfree]
        rw [ih _ _ (by simpa using hfound) h, filed_set (by omega)]
        by_cases hij : i = j
        · subst i
          simp [hfree']
        · have hne : (names[i] == names[j]) = false :=
            beq_false_of_ne fun h => hij (hnames.getElem_inj_iff.mp h)
          rw [if_neg hij, List.lookup_cons, hne]
    · rename_i hposition
      have hne : (names[i] == name) = false :=
        beq_false_of_ne fun h => positionOf?_eq_none hposition (h ▸ List.getElem_mem hi)
      split at h
      · nomatch h
      · rename_i hpass
        rw [ih _ _ hfound h]
        simp [List.lookup_cons, hne]

/-- The places before anything is filed. -/
def free (names : List String) : List (Option Slot) := names.map fun _ => none

theorem length_free (names : List String) : (free names).length = names.length :=
  List.length_map _

theorem filed_free (names : List String) (i : Nat) : filed (free names) i = none := by
  rw [filed, free, List.getElem?_map]
  cases names[i]? <;> rfl

theorem fileMembers_free_iff {names : List String} (hnames : names.Nodup)
    (ms : List (String × Node)) :
    (fileMembers names 0 (free names) (named ms)).2 = none ↔
      (∀ m ∈ ms, m.1 ∉ names → m.2.pass = .ok ())
      ∧ ∀ name ∈ names, (ms.map Prod.fst).count name ≤ 1 := by
  rw [fileMembers_iff hnames ms 0 _ (length_free names)]
  simp [filed_free, List.forall_mem_iff_getElem]

theorem fileMembers_free_found {names : List String} (hnames : names.Nodup)
    (ms : List (String × Node)) (h : (fileMembers names 0 (free names) (named ms)).2 = none)
    (i : Nat) (hi : i < names.length) :
    filed (fileMembers names 0 (free names) (named ms)).1 i = ms.lookup names[i] := by
  rw [fileMembers_found hnames ms 0 _ (length_free names) h i hi, filed_free, Option.none_or]

/-! ### What the members say -/

theorem memberTrees?_named_cons {name : String} {v : Node} {ms : List (String × Node)}
    {ts : List (Option String × Tree)} :
    memberTrees? (named ((name, v) :: ms)) = some ts
      ↔ ∃ t rest, v.tree? = some t ∧ memberTrees? (named ms) = some rest
        ∧ ts = (some name, t) :: rest := by
  rw [named, List.map_cons, ← named, memberTrees?_cons]
  rfl

theorem exists_memberTrees {ms : List (String × Node)}
    (h : ∀ m ∈ ms, ∃ t, m.2.tree? = some t) : ∃ ts, memberTrees? (named ms) = some ts := by
  induction ms with
  | nil => exact ⟨[], rfl⟩
  | cons m ms ih =>
    obtain ⟨⟨t, ht⟩, hrest⟩ := List.forall_mem_cons.mp h
    obtain ⟨ts, hts⟩ := ih hrest
    exact ⟨_, memberTrees?_named_cons.mpr ⟨t, ts, ht, hts, rfl⟩⟩

theorem exists_tree_of_mem {ms : List (String × Node)} {ts : List (Option String × Tree)}
    (h : memberTrees? (named ms) = some ts) : ∀ m ∈ ms, ∃ t, m.2.tree? = some t := by
  induction ms generalizing ts with
  | nil => exact fun _ hm => absurd hm List.not_mem_nil
  | cons m ms ih =>
    obtain ⟨t, rest, ht, hrest, -⟩ := memberTrees?_named_cons.mp h
    exact List.forall_mem_cons.mpr ⟨⟨t, ht⟩, ih hrest⟩

theorem fst_memberTrees {ms : List (String × Node)} {ts : List (Option String × Tree)}
    (h : memberTrees? (named ms) = some ts) : ts.map Prod.fst = (ms.map Prod.fst).map some := by
  induction ms generalizing ts with
  | nil =>
    obtain rfl : [] = ts := Option.some.inj h
    rfl
  | cons m ms ih =>
    obtain ⟨t, rest, -, hrest, rfl⟩ := memberTrees?_named_cons.mp h
    rw [List.map_cons, ih hrest]
    rfl

theorem lookup_memberTrees {ms : List (String × Node)} {ts : List (Option String × Tree)}
    (h : memberTrees? (named ms) = some ts) (name : String) :
    (ms.lookup name).map Node.tree? = (ts.lookup (some name)).map some := by
  induction ms generalizing ts with
  | nil =>
    obtain rfl : [] = ts := Option.some.inj h
    rfl
  | cons m ms ih =>
    obtain ⟨key, v⟩ := m
    obtain ⟨t, rest, ht, hrest, rfl⟩ := memberTrees?_named_cons.mp h
    simp only [List.lookup_cons, Option.some_beq_some]
    split
    · exact congrArg some ht
    · exact ih hrest

/-- Members that say something have readable names when those can be told apart from nothing. -/
theorem exists_named_of_readable {members : List (Except Stop String × Node)}
    {ts : List (Option String × Tree)} (h : memberTrees? members = some ts)
    (hreadable : ∀ m ∈ ts, m.1 ≠ none) : ∃ ms, members = named ms := by
  induction members generalizing ts with
  | nil => exact ⟨[], rfl⟩
  | cons m members ih =>
    obtain ⟨name, v⟩ := m
    obtain ⟨t, rest, -, hrest, rfl⟩ := memberTrees?_cons.mp h
    obtain ⟨hname, hreadable⟩ := List.forall_mem_cons.mp hreadable
    obtain ⟨ms, rfl⟩ := ih hrest hreadable
    cases name with
    | error s => exact absurd rfl hname
    | ok name => exact ⟨(name, v) :: ms, rfl⟩

theorem lookup_of_mem_of_count {ms : List (String × Node)} {m : String × Node} (hm : m ∈ ms)
    (hcount : (ms.map Prod.fst).count m.1 ≤ 1) : ms.lookup m.1 = some m.2 := by
  induction ms with
  | nil => exact absurd hm List.not_mem_nil
  | cons n ms ih =>
    obtain ⟨name, v⟩ := n
    rw [List.map_cons, List.count_cons] at hcount
    rw [List.lookup_cons]
    rcases List.mem_cons.mp hm with rfl | hm
    · simp
    · -- a second member of the same name would count twice
      have hpos : 0 < (ms.map Prod.fst).count m.1 :=
        List.count_pos_iff.mpr (List.mem_map_of_mem hm)
      have hne : (m.1 == name) = false := by
        by_contra hname
        have hname' : name = m.1 := (beq_iff_eq.mp (by simpa using hname)).symm
        rw [if_pos (beq_iff_eq.mpr hname')] at hcount
        omega
      rw [hne]
      exact ih hm (by omega)

/-! ### Records -/

theorem Tree.HasFields.length_eq {names : List String} {t : Tree} {vs : List (Option Tree)}
    (h : t.HasFields names vs) : vs.length = names.length := by
  cases h with
  | object => simp
  | list h => simp; omega

theorem Slots.decode_eq_ok_iff {slots : Slots} {fields : Fields α} {a : α} :
    slots.decode fields = .ok a ↔ slots.fault = none ∧ fields.read 0 slots = .ok a := by
  rw [decode]
  cases slots.fault <;> cases fields.read 0 slots <;> simp

theorem Slots.fault_ofObject {names : List String} {members : List (Except Stop String × Node)}
    {ending : Ending} :
    (ofObject names members ending).fault = none
      ↔ (fileMembers names 0 (free names) members).2 = none ∧ ending = .closed := by
  cases ending <;> simp [ofObject, free, Decoder.closed]

theorem Slots.say_ofObject_iff {names : List String} (hnames : names.Nodup)
    {ms : List (String × Node)} {ending : Ending} {vs : List (Option Tree)}
    (hvs : vs.length = names.length)
    (h : (fileMembers names 0 (free names) (named ms)).2 = none) :
    (ofObject names (named ms) ending).Say 0 vs
      ↔ ∀ i (hi : i < vs.length), (ms.lookup names[i]).map Node.tree? = vs[i].map some := by
  refine forall₂_congr fun i hi => ?_
  rw [← fileMembers_free_found hnames ms h i (by omega)]
  simp [ofObject, free, filed, Option.map_map, Function.comp_def]

/-- The fields of an object with readable names, found among the nodes of its members. -/
theorem hasFields_named_iff {names : List String} {ms : List (String × Node)}
    {ts : List (Option String × Tree)} {vs : List (Option Tree)} (hvs : vs.length = names.length)
    (hts : memberTrees? (named ms) = some ts) :
    (Tree.object ts).HasFields names vs ↔ (∀ name ∈ names, (ms.map Prod.fst).count name ≤ 1)
      ∧ ∀ i (hi : i < vs.length), (ms.lookup names[i]).map Node.tree? = vs[i].map some := by
  have hreadable : ∀ m ∈ ts, m.1 ≠ none := by
    intro m hm hnone
    have := List.mem_map_of_mem (f := Prod.fst) hm
    rw [fst_memberTrees hts, hnone] at this
    simp at this
  have hvalues : (∀ i (hi : i < vs.length), (ms.lookup names[i]).map Node.tree? = vs[i].map some)
      ↔ vs = names.map fun name => ts.lookup (some name) := by
    simp only [lookup_memberTrees hts]
    constructor
    · refine fun h => List.ext_getElem (by simpa using hvs) fun i hi _ => ?_
      rw [List.getElem_map]
      exact (Option.map_injective (Option.some_injective _) (h i hi)).symm
    · rintro rfl i hi
      rw [List.getElem_map]
  rw [hasFields_object_iff, hvalues, fst_memberTrees hts]
  simp only [List.count_map_of_injective _ _ (Option.some_injective _)]
  exact and_iff_right hreadable

/-- Members without a fault say something when those that have a place do. -/
theorem exists_tree_of_filed {names : List String} {ms : List (String × Node)}
    {vs : List (Option Tree)} (hvs : vs.length = names.length)
    (hpass : ∀ m ∈ ms, m.1 ∉ names → m.2.pass = .ok ())
    (hcount : ∀ name ∈ names, (ms.map Prod.fst).count name ≤ 1)
    (h : ∀ i (hi : i < vs.length), (ms.lookup names[i]).map Node.tree? = vs[i].map some) :
    ∀ m ∈ ms, ∃ t, m.2.tree? = some t := by
  intro m hm
  by_cases hname : m.1 ∈ names
  · -- look-up finds this very member
    obtain ⟨i, hi, hmi⟩ := List.getElem_of_mem hname
    have := h i (by omega)
    rw [hmi, lookup_of_mem_of_count hm (hcount _ hname)] at this
    cases hv : vs[i] with
    | none => simp [hv] at this
    | some t => exact ⟨t, by simpa [hv] using this⟩
  · exact (pass_eq_ok_iff _).mp (hpass m hm hname)

/-- An object has slots without a fault that say something exactly when the object does. -/
theorem Slots.says_ofObject {names : List String} (hnames : names.Nodup)
    {members : List (Except Stop String × Node)} {ending : Ending} {vs : List (Option Tree)}
    (hvs : vs.length = names.length) :
    (ofObject names members ending).fault = none ∧ (ofObject names members ending).Say 0 vs
      ↔ ∃ t, (Node.object members ending).tree? = some t ∧ t.HasFields names vs := by
  rw [fault_ofObject]
  constructor
  · rintro ⟨⟨hfile, rfl⟩, h⟩
    obtain ⟨ms, rfl⟩ := exists_named hfile
    rw [say_ofObject_iff hnames hvs hfile] at h
    obtain ⟨hpass, hcount⟩ := (fileMembers_free_iff hnames ms).mp hfile
    obtain ⟨ts, hts⟩ := exists_memberTrees (exists_tree_of_filed hvs hpass hcount h)
    exact ⟨.object ts, Node.tree?_object.mpr ⟨rfl, ts, hts, rfl⟩,
      (hasFields_named_iff hvs hts).mpr ⟨hcount, h⟩⟩
  · rintro ⟨t, ht, hfields⟩
    obtain ⟨rfl, ts, hts, rfl⟩ := Node.tree?_object.mp ht
    obtain ⟨ms, rfl⟩ := exists_named_of_readable hts (hasFields_object_iff.mp hfields).1
    obtain ⟨hcount, h⟩ := (hasFields_named_iff hvs hts).mp hfields
    have hfile : (fileMembers names 0 (free names) (named ms)).2 = none :=
      (fileMembers_free_iff hnames ms).mpr
        ⟨fun m hm _ => (pass_eq_ok_iff _).mpr (exists_tree_of_mem hts m hm), hcount⟩
    exact ⟨⟨hfile, rfl⟩, (say_ofObject_iff hnames hvs hfile).mpr h⟩

theorem Slots.fault_ofList {record : String} {names : List String} {items : List Node}
    {ending : Ending} :
    (ofList record names items ending).fault = none
      ↔ items.length ≤ names.length ∧ ending = .closed := by
  simp only [ofList, Option.map_eq_none_iff]
  rcases Nat.lt_trichotomy items.length names.length with hlt | heq | hgt
  · rw [if_pos hlt]
    cases ending <;> simp [Decoder.closed, hlt.le]
  · rw [if_neg (by omega), if_neg (by omega)]
    cases ending <;> simp [heq]
  · rw [if_neg (by omega), if_pos hgt]
    simp [hgt]

theorem trees?_eq_some_iff {items : List Node} {ts : List Tree} :
    trees? items = some ts ↔ items.map Node.tree? = ts.map some := by
  induction items generalizing ts with
  | nil => cases ts <;> simp [trees?]
  | cons v items ih =>
    rw [trees?_cons]
    cases ts with
    | nil => simp
    | cons t ts =>
      simp only [← ih, List.cons.injEq, List.map_cons]
      constructor
      · rintro ⟨_, _, ht, hts, rfl, rfl⟩
        exact ⟨ht, hts⟩
      · rintro ⟨ht, hts⟩
        exact ⟨t, ts, ht, hts, rfl, rfl⟩

theorem exists_trees {items : List Node} (h : ∀ v ∈ items, ∃ t, v.tree? = some t) :
    ∃ ts, trees? items = some ts := by
  induction items with
  | nil => exact ⟨[], rfl⟩
  | cons v items ih =>
    obtain ⟨⟨t, ht⟩, hrest⟩ := List.forall_mem_cons.mp h
    obtain ⟨ts, hts⟩ := ih hrest
    exact ⟨_, trees?_cons.mpr ⟨t, ts, ht, hts, rfl⟩⟩

theorem getElem_padded {ts : List α} {k i : Nat}
    (h : i < (ts.map some ++ List.replicate k none).length) :
    (ts.map some ++ List.replicate k none)[i] = ts[i]? := by
  rcases Nat.lt_or_ge i ts.length with hlt | hge
  · rw [List.getElem_append_left (by simpa using hlt)]
    simp [hlt]
  · rw [List.getElem_append_right (by simpa using hge), List.getElem?_eq_none hge]
    simp

/-- So has a list, which may be shorter than the record. -/
theorem Slots.says_ofList {record : String} {names : List String} {items : List Node}
    {ending : Ending} {vs : List (Option Tree)} (hvs : vs.length = names.length) :
    (ofList record names items ending).fault = none
        ∧ (ofList record names items ending).Say 0 vs
      ↔ ∃ t, (Node.list items ending).tree? = some t ∧ t.HasFields names vs := by
  have hsay : (ofList record names items ending).Say 0 vs
      ↔ ∀ i (hi : i < vs.length), items[i]?.map Node.tree? = vs[i].map some := by
    refine forall₂_congr fun i hi => ?_
    have hi' : i < names.length := by omega
    simp only [ofList, Nat.zero_add, List.getElem?_mapIdx, List.getElem?_eq_getElem hi']
    simp [Option.map_map, Function.comp_def]
  rw [fault_ofList, hsay]
  constructor
  · rintro ⟨⟨hlength, rfl⟩, h⟩
    have htrees : ∀ v ∈ items, ∃ t, v.tree? = some t := by
      intro v hv
      obtain ⟨i, hi, rfl⟩ := List.getElem_of_mem hv
      have := h i (by omega)
      cases hvi : vs[i] with
      | none => simp [hvi, hi] at this
      | some t => exact ⟨t, by simpa [hvi, hi] using this⟩
    obtain ⟨ts, hts⟩ := exists_trees htrees
    have hmap := trees?_eq_some_iff.mp hts
    have hts' : items.length = ts.length := by simpa using congrArg List.length hmap
    refine ⟨.list ts, Node.tree?_list.mpr ⟨rfl, ts, hts, rfl⟩, ?_⟩
    have hvalues : vs = ts.map some ++ List.replicate (names.length - ts.length) none := by
      refine List.ext_getElem (by simp; omega) fun i hi _ => ?_
      have := h i hi
      rw [← List.getElem?_map, hmap, List.getElem?_map] at this
      rw [getElem_padded]
      exact (Option.map_injective (Option.some_injective _) this).symm
    rw [hvalues]
    exact .list (by omega)
  · rintro ⟨t, ht, hfields⟩
    obtain ⟨rfl, ts, hts, rfl⟩ := Node.tree?_list.mp ht
    have hmap := trees?_eq_some_iff.mp hts
    have hts' : items.length = ts.length := by simpa using congrArg List.length hmap
    cases hfields with
    | list hlength =>
      refine ⟨⟨by omega, rfl⟩, fun i hi => ?_⟩
      rw [← List.getElem?_map, hmap, List.getElem?_map, getElem_padded]

/-- A record is decided by what stands in the places of its fields. -/
theorem Decides.record (name : String) {fields : Fields α} {R : List (Option Tree) → α → Prop}
    (h : fields.Decides R) (hnames : fields.names.Nodup) {C : Tree → α → Prop}
    (hC : ∀ t a, C t a ↔ ∃ vs, t.HasFields fields.names vs ∧ R vs a) :
    Decides (Decoder.record name fields) C := fun v a => by
  have hslots : ∀ (slots : Slots) (v : Node), (∀ vs, vs.length = fields.names.length →
      (slots.fault = none ∧ slots.Say 0 vs
        ↔ ∃ t, v.tree? = some t ∧ t.HasFields fields.names vs)) →
      (slots.decode fields = .ok a ↔ ∃ t, v.tree? = some t ∧ C t a) := by
    intro slots v hplaces
    rw [Slots.decode_eq_ok_iff, h.read]
    constructor
    · rintro ⟨hfault, vs, hsay, hR⟩
      obtain ⟨t, ht, hfields⟩ := (hplaces vs (h.length vs a hR)).mp ⟨hfault, hsay⟩
      exact ⟨t, ht, (hC t a).mpr ⟨vs, hfields, hR⟩⟩
    · rintro ⟨t, ht, hCt⟩
      obtain ⟨vs, hfields, hR⟩ := (hC t a).mp hCt
      obtain ⟨hfault, hsay⟩ := (hplaces vs hfields.length_eq).mpr ⟨t, ht, hfields⟩
      exact ⟨hfault, vs, hsay, hR⟩
  cases v with
  | object members ending => exact hslots _ _ fun vs => Slots.says_ofObject hnames
  | list items ending => exact hslots _ _ fun vs => Slots.says_ofList
  | null | bool | number | text | broken =>
    -- no record looks like this
    have hnot : ∀ t, C t a → (∃ ms, t = .object ms) ∨ ∃ ts, t = .list ts := by
      intro t ht
      obtain ⟨vs, hfields, -⟩ := (hC t a).mp ht
      cases hfields with
      | object => exact .inl ⟨_, rfl⟩
      | list => exact .inr ⟨_, rfl⟩
    constructor
    · intro hread
      nomatch hread
    · rintro ⟨t, ht, hCt⟩
      rcases hnot t hCt with ⟨ms, rfl⟩ | ⟨ts, rfl⟩ <;> simp [Node.tree?] at ht

end Rollout.Json
