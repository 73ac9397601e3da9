/-
Records are read back from the objects they are written as.

`Reads item v a` says that a decoder finds the value `a` in the document `v`; `Fields.Reads` says
the same of some fields of a record and of what stands under their names.

* `Reads.text`, `Reads.integer`, `Reads.list`, `Reads.optional`, `Reads.variant` for the simple
  shapes;
* `Fields.Reads.required`, `Fields.Reads.field`, `Fields.Reads.absent`, put together by
  `Fields.Reads.map` and `Fields.Reads.seq`;
* `Reads.record`: an object of the fields that are there, in declaration order, gives the record;
* `decodeText_compact`, `decodeBytes_compact`: from documents to texts and their bytes.
-/
import Mathlib.Order.Defs.LinearOrder
import Rollout.Json.Decode
import Rollout.Proofs.Json.Document

namespace Rollout.Json

/-- The decoder finds the value in the document. -/
def Reads (item : Decoder α) (v : Value) (a : α) : Prop :=
  item (Node.ofValue v) = .ok a

theorem decodeText_compact_iff {item : Decoder α} {v : Value} {a : α} :
    decodeText item v.compact = .ok a ↔ Reads item v a := by
  simp [decodeText, Document.decode, Document.ofText_compact, bind_eq_ok_iff, Reads]

/-- A decoder that finds a value in a document finds it in the one-line form. -/
theorem decodeText_compact {item : Decoder α} {v : Value} {a : α} (h : Reads item v a) :
    decodeText item v.compact = .ok a :=
  decodeText_compact_iff.mpr h

theorem decodeBytes_compact_iff {item : Decoder α} {v : Value} {a : α} :
    decodeBytes item (Utf8.encode v.compact) = .ok a ↔ Reads item v a := by
  rw [← decodeText_compact_iff, decodeBytes, Document.ofBytes_encode, decodeText]

/-- So does it in the bytes of that form. -/
theorem decodeBytes_compact {item : Decoder α} {v : Value} {a : α} (h : Reads item v a) :
    decodeBytes item (Utf8.encode v.compact) = .ok a :=
  decodeBytes_compact_iff.mpr h

/-! ### Numbers -/

/-- The integers that a reader takes for integers. -/
def Number.Exact (i : Int) : Prop :=
  -(greatestNegated : Int) ≤ i ∧ i ≤ maxUnsigned

theorem Number.meaning_ofInt {i : Int} (h : Exact i) : (ofInt i).meaning = .int i := by
  obtain ⟨hlow, hhigh⟩ := h
  rcases lt_or_ge i 0 with hneg | hpos
  · have hpositive : 0 < i.natAbs := by omega
    have hfits : i.natAbs ≤ greatestNegated := by omega
    have hvalue : -(i.natAbs : Int) = i := by omega
    simp only [meaning, ofInt, hneg, decide_true, Option.isNone_none, Bool.and_self, Bool.not_true,
      Bool.and_false, ofDigits_numerals, Bool.false_and, Bool.false_eq_true, ↓reduceIte, hpositive,
      hfits, Meaning.int.injEq]
    exact hvalue
  · have hsign : ¬ i < 0 := by omega
    have hfits : i.natAbs ≤ maxUnsigned := by omega
    have hvalue : (i.natAbs : Int) = i := by omega
    simp only [meaning, ofInt, hsign, decide_false, Option.isNone_none, Bool.and_self,
      Bool.not_false, ofDigits_numerals, hfits, decide_true, ↓reduceIte, Meaning.int.injEq]
    exact hvalue

namespace Reads

/-! ### Simple shapes -/

theorem map {item : Decoder α} {v : Value} {a : α} {f : α → β} {b : β} (h : Reads item v a)
    (hb : f a = b) : Reads (Decoder.map f item) v b := by
  have h' : item (Node.ofValue v) = .ok a := h
  simp [Reads, Decoder.map, h', hb, Functor.map, Except.map]

theorem text (s : String) : Reads Decoder.text (.text s) s := rfl

theorem bool (b : Bool) : Reads Decoder.bool (.bool b) b := rfl

theorem integer {low high i : Int} (expected : String) (h : low ≤ i ∧ i ≤ high)
    (hexact : Number.Exact i) : Reads (Decoder.integer low high expected) (.int i) i := by
  simp [Reads, Node.ofValue, Decoder.integer, Number.meaning_ofInt hexact, h]

theorem natural {bound n : Nat} (expected : String) (h : n < bound)
    (hexact : n ≤ Number.maxUnsigned) :
    Reads (Decoder.natural bound expected) (.int n) n := by
  have hint : Reads (Decoder.integer 0 (bound - 1) expected) (.int n) n :=
    integer expected (by omega) ⟨by omega, by omega⟩
  have hint' : Decoder.integer 0 (bound - 1) expected (Node.ofValue (.int n)) = .ok (n : Int) :=
    hint
  simp [Reads, Decoder.natural, hint', Except.map]

theorem items {item : Decoder α} {toJson : α → Value} (as : List α)
    (h : ∀ a ∈ as, Reads item (toJson a) a) (index : Nat) :
    Decoder.items item index (Node.ofItems (as.map toJson)) = .ok as := by
  induction as generalizing index with
  | nil => rfl
  | cons a as ih =>
    have ha : item (Node.ofValue (toJson a)) = .ok a := h a List.mem_cons_self
    have has := ih (fun b hb => h b (List.mem_cons_of_mem a hb)) (index + 1)
    simp [Node.ofItems, Decoder.items, ha, has, Except.mapError, bind, Except.bind]

theorem list {item : Decoder α} {toJson : α → Value} (as : List α)
    (h : ∀ a, Reads item (toJson a) a) :
    Reads (Decoder.list item) (.list (as.map toJson)) as := by
  have has := items as (fun a _ => h a) 0
  simp [Reads, Node.ofValue, Decoder.list, has, Decoder.closed, bind, Except.bind]

/-- What is not `null` is a value that is there. -/
theorem optional {item : Decoder α} {v : Value} {a : α} (h : Reads item v a) (hv : v ≠ .null) :
    Reads (Decoder.optional item) v (some a) := by
  have h' : item (Node.ofValue v) = .ok a := h
  cases v <;> simp_all [Reads, Node.ofValue, Decoder.optional, Except.map]

theorem variant {known : List (String × α)} {name : String} {a : α}
    (h : known.lookup name = some a) : Reads (Decoder.variant known) (.text name) a := by
  simp [Reads, Node.ofValue, Decoder.variant, Decoder.variantName, h]

end Reads

/-! ### Fields -/

/-- The slots from an offset on hold these documents; `none` for a field that is not there. -/
def Slots.Hold (slots : Slots) (offset : Nat) (vs : List (Option Value)) : Prop :=
  ∀ i (h : i < vs.length),
    slots.found[offset + i]?.join.map Slot.value = vs[i].map Node.ofValue

theorem Slots.Hold.append {slots : Slots} {offset : Nat} {vs ws : List (Option Value)}
    (h : slots.Hold offset (vs ++ ws)) :
    slots.Hold offset vs ∧ slots.Hold (offset + vs.length) ws := by
  refine ⟨fun i hi => ?_, fun i hi => ?_⟩
  · have := h i (by simp; omega)
    rwa [List.getElem_append_left hi] at this
  · have := h (vs.length + i) (by simp; omega)
    rw [List.getElem_append_right (by omega)] at this
    simpa [Nat.add_assoc] using this

/-- The fields find the value when these documents stand under their names. -/
structure Fields.Reads (fields : Fields α) (vs : List (Option Value)) (a : α) : Prop where
  length : fields.names.length = vs.length
  read : ∀ offset slots, slots.Hold offset vs → fields.read offset slots = .ok a

namespace Fields.Reads

theorem map {fields : Fields α} {vs : List (Option Value)} {a : α} (f : α → β)
    (h : fields.Reads vs a) : (f <$> fields).Reads vs (f a) where
  length := h.length
  read offset slots hold := by
    change (fields.read offset slots).map f = _
    rw [h.read offset slots hold]
    rfl

theorem seq {f : Fields (α → β)} {x : Fields α} {g : α → β} {a : α}
    {vs ws : List (Option Value)} (hf : f.Reads vs g) (hx : x.Reads ws a) :
    (f <*> x).Reads (vs ++ ws) (g a) where
  length := by
    change (f.names ++ x.names).length = _
    simp [hf.length, hx.length]
  read offset slots hold := by
    change both (f.read offset slots) (x.read (offset + f.names.length) slots) = _
    rw [hf.read offset slots hold.append.1, hf.length, hx.read _ slots hold.append.2]
    rfl

/-- A slot whose value is read. -/
theorem ofSlot_eq {item : Decoder α} {slot : Slot} {v : Value} {a : α}
    (hvalue : slot.value = Node.ofValue v) (h : Json.Reads item v a) :
    ofSlot item slot = .ok a := by
  have h' : item (Node.ofValue v) = .ok a := h
  simp [ofSlot, hvalue, h', Except.mapError]

theorem required {item : Decoder α} {v : Value} {a : α} (name : String)
    (h : Json.Reads item v a) : (Fields.required name item).Reads [some v] a where
  length := rfl
  read offset slots hold := by
    obtain ⟨slot, hslot, hvalue⟩ : ∃ slot, slots.found[offset]?.join = some slot
        ∧ slot.value = Node.ofValue v := by
      simpa using hold 0 (by simp)
    simp [Fields.required, hslot, ofSlot_eq hvalue h]

/-- A field with a default is read where it is there. -/
theorem field {item : Decoder α} {v : Value} {a : α} (name : String) (default : α)
    (h : Json.Reads item v a) : (Fields.field name item default).Reads [some v] a where
  length := rfl
  read offset slots hold := by
    obtain ⟨slot, hslot, hvalue⟩ : ∃ slot, slots.found[offset]?.join = some slot
        ∧ slot.value = Node.ofValue v := by
      simpa using hold 0 (by simp)
    simp [Fields.field, hslot, ofSlot_eq hvalue h]

/-- A field that is not there has its default. -/
theorem absent (item : Decoder α) (name : String) (default : α) :
    (Fields.field name item default).Reads [none] default where
  length := rfl
  read offset slots hold := by
    have hslot : slots.found[offset]?.join = none := by simpa using hold 0 (by simp)
    simp [Fields.field, hslot]

end Fields.Reads

/-! ### Records -/

@[simp] theorem optionalField_none (name : String) : Value.optionalField name none = [] := rfl

@[simp] theorem optionalField_some (name : String) (v : Value) :
    Value.optionalField name (some v) = [(name, v)] := rfl

/-- What is found of a field that may be left out. -/
@[simp] theorem lookup_optionalField (name key : String) (v : Option Value) :
    (Value.optionalField key v).lookup name = if name = key then v else none := by
  cases v with
  | none => simp
  | some v =>
    by_cases h : name = key
    · simp [h]
    · simp [List.lookup_cons, beq_eq_false_iff_ne.mpr h, h]

theorem listField_eq (name : String) (items : List Value) :
    Value.listField name items
      = Value.optionalField name (if items.isEmpty then none else some (.list items)) := by
  cases items <;> rfl

/-- The fields that are there, in declaration order. -/
def presentFields : List String → List (Option Value) → List (String × Value)
  | name :: names, v :: vs => Value.optionalField name v ++ presentFields names vs
  | _, _ => []

theorem positionOf?_append {before after : List String} {name : String}
    (h : (before ++ name :: after).Nodup) :
    positionOf? (before ++ name :: after) name = some before.length := by
  have hbefore : before.findIdx? (· == name) = none := by
    rw [List.findIdx?_eq_none_iff]
    intro other hother
    have := (List.nodup_append.mp h).2.2 other hother name List.mem_cons_self
    simpa using this
  simp [positionOf?, List.findIdx?_append, hbefore, List.findIdx?_cons]

/-- Each field that is there is filed under its own name, and there is no fault. -/
theorem fileMembers_present (names : List String) (vs : List (Option Value))
    (before : List String) (found : List (Option Slot)) (position : Nat)
    (hnames : (before ++ names).Nodup) (hbefore : found.length = before.length)
    (hvs : names.length = vs.length) :
    ∃ slots, slots.map (Option.map Slot.value) = vs.map (Option.map Node.ofValue)
      ∧ fileMembers (before ++ names) position (found ++ List.replicate names.length none)
          (Node.ofFields (presentFields names vs)) = (found ++ slots, none) := by
  induction names generalizing vs before found position with
  | nil =>
    obtain rfl := List.eq_nil_of_length_eq_zero hvs.symm
    exact ⟨[], rfl, rfl⟩
  | cons name names ih =>
    obtain ⟨v?, vs, rfl⟩ := List.exists_cons_of_length_eq_add_one hvs.symm
    have hvs' : names.length = vs.length := by simpa using hvs
    -- what the rest of the fields gives when this one is filed as `slot`
    have hrest : ∀ (slot : Option Slot) (position : Nat), ∃ slots,
        slots.map (Option.map Slot.value) = vs.map (Option.map Node.ofValue)
        ∧ fileMembers (before ++ name :: names) position
            (found ++ slot :: List.replicate names.length none)
            (Node.ofFields (presentFields names vs)) = (found ++ slot :: slots, none) := by
      intro slot position
      have := ih vs (before ++ [name]) (found ++ [slot]) position (by simpa using hnames)
        (by simp [hbefore]) hvs'
      simpa using this
    cases v? with
    | none =>
      obtain ⟨slots, hslots, hfile⟩ := hrest none position
      refine ⟨none :: slots, by simp [hslots], ?_⟩
      simpa [presentFields, List.replicate_succ] using hfile
    | some v =>
      obtain ⟨slots, hslots, hfile⟩ :=
        hrest (some ⟨position, .name name, Node.ofValue v⟩) (position + 1)
      refine ⟨some ⟨position, .name name, Node.ofValue v⟩ :: slots, by simp [hslots], ?_⟩
      have hfree : (found ++ none :: List.replicate names.length none)[before.length]?.join
          = (none : Option Slot) := by
        simp [← hbefore]
      have hset : (found ++ none :: List.replicate names.length none).set before.length
          (some ⟨position, .name name, Node.ofValue v⟩)
          = found ++ some ⟨position, .name name, Node.ofValue v⟩
            :: List.replicate names.length none := by
        simp [← hbefore]
      simp only [presentFields, optionalField_some, List.cons_append, List.nil_append,
        Node.ofFields, fileMembers, positionOf?_append hnames, List.length_cons,
        List.replicate_succ, hfree, hset, Option.isSome_none, Bool.false_eq_true, ↓reduceIte]
      exact hfile

/-- The slots of the object of the fields that are there hold just those. -/
theorem Slots.ofObject_present {names : List String} {vs : List (Option Value)}
    (hnames : names.Nodup) (hvs : names.length = vs.length) :
    let slots := ofObject names (Node.ofFields (presentFields names vs)) .closed
    slots.fault = none ∧ slots.Hold 0 vs := by
  obtain ⟨found, hfound, hfile⟩ := fileMembers_present names vs [] [] 0 hnames rfl hvs
  rw [List.nil_append, List.nil_append, ← List.map_const', List.nil_append] at hfile
  have hlength : found.length = vs.length := by simpa using congrArg List.length hfound
  refine ⟨by simp only [ofObject, hfile, Decoder.closed, Option.or_self], fun i hi => ?_⟩
  have hi' : i < found.length := by omega
  have hvalue := congrArg (·[i]?) hfound
  simp only [ofObject, hfile]
  simpa [hi, hi'] using hvalue

/-- A record is read back from the object of its fields that are there. -/
theorem Reads.record {fields : Fields α} {vs : List (Option Value)} {a : α} (name : String)
    {members : List (String × Value)} (h : fields.Reads vs a) (hnames : fields.names.Nodup)
    (hmembers : members = presentFields fields.names vs) :
    Reads (Decoder.record name fields) (.object members) a := by
  subst hmembers
  obtain ⟨hfault, hhold⟩ := Slots.ofObject_present hnames h.length
  simp only [Reads, Node.ofValue, Decoder.record, Slots.decode, hfault, h.read 0 _ hhold]

end Rollout.Json
