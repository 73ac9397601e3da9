/-
YAML documents that are written as JSON are read like those.

* `integer?_toString`, `natural?_toString`: decimal digits spell their number;
* `Reads`, `FieldsRead`: a decoder finds a value in a document, fields find it among members;
* `format_laws`: the decoders read what was written, as those of JSON do;
* `decodeText_compact`: from documents to texts.

A document of this kind has neither aliases nor tags, so that nothing is counted and nothing is
refused on the way.
-/
import Rollout.Proofs.Format
import Rollout.Proofs.Yaml.Document
import Rollout.Yaml.Decode

namespace Rollout.Yaml

open Json (Value presentFields)

/-! ### Numbers -/

theorem digitIn?_digit {c : Char} (h : c.isDigit) :
    digitIn? 10 c = some (c.toNat - '0'.toNat) := by
  have hrange : '0' ≤ c ∧ c ≤ '9' := by
    simpa [Char.isDigit, Char.le_def] using h
  have hvalue : hexDigit? c = some (c.toNat - '0'.toNat) := by
    simp [hexDigit?, hrange]
  have hhigh : c.toNat ≤ '9'.toNat := hrange.2
  have hlt : c.toNat - '0'.toNat < 10 := by
    have hnine : '9'.toNat = '0'.toNat + 9 := rfl
    omega
  simp only [digitIn?, hvalue, hlt, ↓reduceIte]

theorem mapM_digitIn? {cs : List Char} (h : ∀ c ∈ cs, c.isDigit) :
    cs.mapM (digitIn? 10) = some (cs.map fun c => c.toNat - '0'.toNat) := by
  induction cs with
  | nil => rfl
  | cons c cs ih =>
    obtain ⟨hc, hcs⟩ := List.forall_mem_cons.mp h
    rw [List.mapM_cons, digitIn?_digit hc, ih hcs]
    rfl

theorem hasLeadingZero_toDigits (n : Nat) : hasLeadingZero (Nat.toDigits 10 n) = false := by
  rcases Nat.lt_or_ge n 10 with hlt | hge
  · simp [hasLeadingZero, Nat.toDigits_of_lt_base hlt]
  · obtain ⟨c, cs, hcs⟩ : ∃ c cs, Nat.toDigits 10 n = c :: cs :=
      List.exists_cons_of_ne_nil (by simp)
    have hpos : 0 < c.toNat - '0'.toNat :=
      Json.numerals_head_pos (n := n) (by omega) (by rw [Json.numerals, hcs, List.map_cons])
    have hne : c ≠ '0' := by
      rintro rfl
      simp at hpos
    simp [hasLeadingZero, hcs, hne]

/-- Decimal digits spell their number. -/
theorem magnitude?_toDigits (n : Nat) : magnitude? (Nat.toDigits 10 n) = some n := by
  have hdigits : ∀ c ∈ Nat.toDigits 10 n, c.isDigit := fun c hc =>
    Nat.isDigit_of_mem_toDigits (by decide) (by decide) hc
  -- the letter of another base is no digit
  have hbased : based? (Nat.toDigits 10 n) = none := by
    unfold based?
    split
    all_goals first
      | rfl
      | next heq =>
        rw [heq] at hdigits
        simp at hdigits
  have hnumber := Json.ofDigits_numerals n
  rw [Json.numerals, Json.Number.ofDigits] at hnumber
  have hread : numberIn? 10 (Nat.toDigits 10 n) = some n := by
    rw [numberIn?, if_neg (by simp), mapM_digitIn? hdigits, Option.map_some, hnumber]
  simp [magnitude?, hbased, hasLeadingZero_toDigits, hread]

/-- Decimal digits have no sign in front. -/
theorem head_toDigits {n : Nat} {c : Char} {cs : List Char} (h : Nat.toDigits 10 n = c :: cs) :
    c ≠ '+' ∧ c ≠ '-' := by
  have hc : c.isDigit :=
    Nat.isDigit_of_mem_toDigits (by decide) (by decide) (h ▸ List.mem_cons_self)
  constructor <;> rintro rfl <;> exact absurd hc (by decide)

theorem integer?_toString (i : Int) : integer? (toString i) = some i := by
  have hchars : (toString i).toList = Json.digits i := rfl
  rw [integer?, hchars]
  cases i with
  | ofNat n =>
    rw [Json.digits_ofNat]
    split
    · next heq => exact absurd rfl (head_toDigits heq).1
    · next heq => exact absurd rfl (head_toDigits heq).2
    · rw [magnitude?_toDigits]
      rfl
  | negSucc n =>
    rw [Json.digits_negSucc]
    simp only [magnitude?_toDigits]
    rfl

theorem natural?_toString (n : Nat) : natural? (toString (n : Int)) = some n := by
  have hchars : (toString (n : Int)).toList = Nat.toDigits 10 n := Json.digits_ofNat n
  rw [natural?, hchars]
  split
  · next heq => exact absurd rfl (head_toDigits heq).2
  · rw [integer?_toString]
    rfl

/-- A number is neither left out nor a word for nothing. -/
theorem not_isNullWord_toString (i : Int) :
    ((toString i).isEmpty || isNullWord (toString i)) = false := by
  -- none of the words for nothing spells a number
  have hwords : ∀ s ∈ ["", "null", "Null", "NULL", "~"], integer? s = none := by decide
  rw [Bool.eq_false_iff]
  intro hnothing
  have hmem : toString i ∈ ["", "null", "Null", "NULL", "~"] := by
    simpa [isNullWord, or_assoc] using hnothing
  exact absurd ((integer?_toString i).symm.trans (hwords _ hmem)) nofun

/-! ### Simple shapes -/

/-- The decoder finds the value in the document, and follows no alias. -/
def Reads {α : Type} (item : Decoder α) (v : Value) (a : α) : Prop :=
  ∀ d, item d (Node.ofValue v) = pure a

theorem follow_ofValue (d : Document) (v : Value) :
    d.follow (Node.ofValue v) = pure (Node.ofValue v) := by
  cases v <;> rfl

theorem liftM_ok {α : Type} (a : α) :
    (liftM (Except.ok a : Except Error α) : Reading α) = pure a := rfl

namespace Reads

variable {α β : Type} {item : Decoder α} {v : Value} {a : α}

theorem map {g : α → β} {b : β} (h : Reads item v a) (hb : g a = b) :
    Reads (Decoder.map g item) v b := by
  intro d
  simp [Decoder.map, h d, hb]

theorem text (s : String) : Reads Decoder.text (.text s) s := fun _ => rfl

theorem bool (b : Bool) : Reads Decoder.bool (.bool b) b := by
  cases b <;> exact fun _ => rfl

theorem number {read : String → Option α} {i : Int} (expected : String)
    (h : read (toString i) = some a) : Reads (Decoder.number read expected) (.int i) a := by
  intro d
  rw [Decoder.number, follow_ofValue]
  simp only [Node.ofValue, isResolved, h, pure_bind]

theorem integer {low high i : Int} (expected : String) (h : low ≤ i ∧ i ≤ high) :
    Reads (Decoder.integer low high expected) (.int i) i := by
  intro d
  simp [Decoder.integer, number expected (integer?_toString i) d, h]

theorem natural {bound n : Nat} (expected : String) (h : n < bound) :
    Reads (Decoder.natural bound expected) (.int n) n := by
  intro d
  simp [Decoder.natural, number expected (natural?_toString n) d, h]

theorem list {toJson : α → Value} (as : List α) (h : ∀ a, Reads item (toJson a) a) :
    Reads (Decoder.list item) (.list (as.map toJson)) as := by
  intro d
  have hitems : (Node.ofItems (as.map toJson)).mapM (item d) = pure as := by
    induction as with
    | nil => rfl
    | cons a as ih => simp [Node.ofItems, List.mapM_cons, h a d, ih]
  rw [Decoder.list, follow_ofValue]
  simp [Node.ofValue, hitems]

theorem optional_scalar {d : Document} {style : Style} {s : String}
    (h : item d (.scalar {} style s) = pure a)
    (hthere : Decoder.isNothing {} style s = .ok false) :
    Decoder.optional item d (.scalar {} style s) = pure (some a) := by
  simp only [Decoder.optional, Document.follow, pure_bind, hthere, liftM_ok, h]
  rfl

/-- What is not `null` is a value that is there; a quoted `null` is a text. -/
theorem optional (h : Reads item v a) (hv : v ≠ .null) :
    Reads (Decoder.optional item) v (some a) := by
  intro d
  cases v with
  | null => exact absurd rfl hv
  | bool b =>
    cases b with
    | false => exact optional_scalar (h d) rfl
    | true => exact optional_scalar (h d) rfl
  | int i => exact optional_scalar (h d) (congrArg Except.ok (not_isNullWord_toString i))
  | text s => exact optional_scalar (h d) rfl
  | list items =>
    have hitem := h d
    simp_all [Node.ofValue, Decoder.optional, Document.follow]
  | object fields =>
    have hitem := h d
    simp_all [Node.ofValue, Decoder.optional, Document.follow]

theorem variant {known : List (String × α)} {name : String} (h : known.lookup name = some a) :
    Reads (Decoder.variant known) (.text name) a := by
  intro d
  rw [Decoder.variant, follow_ofValue]
  simp only [Node.ofValue, ownTag?, Decoder.variantName, h, pure_bind]
  rfl

end Reads

/-! ### Fields -/

/-- Under these names stand these documents; `none` for a name that is not there. -/
def Members.Hold (members : List (String × Node)) (names : List String)
    (vs : List (Option Value)) : Prop :=
  ∀ x ∈ names.zip vs, members.lookup x.1 = x.2.map Node.ofValue

/-- The fields have these names and find the value when these documents stand under them. -/
structure FieldsRead {α : Type} (fields : Fields α) (names : List String)
    (vs : List (Option Value)) (a : α) : Prop where
  names_eq : fields.names = names
  length : names.length = vs.length
  read : ∀ d members, Members.Hold members names vs → fields.read d members = pure a

namespace FieldsRead

variable {α β : Type} {item : Decoder α} {v : Value} {a : α}

theorem map {fields : Fields α} {names : List String} {vs : List (Option Value)} (g : α → β)
    (h : FieldsRead fields names vs a) : FieldsRead (g <$> fields) names vs (g a) where
  names_eq := h.names_eq
  length := h.length
  read d members hold := by
    change g <$> fields.read d members = _
    rw [h.read d members hold, map_pure]

theorem seq {fields : Fields (α → β)} {x : Fields α} {names names' : List String}
    {vs ws : List (Option Value)} {g : α → β} (h : FieldsRead fields names vs g)
    (hx : FieldsRead x names' ws a) :
    FieldsRead (fields <*> x) (names ++ names') (vs ++ ws) (g a) where
  names_eq := by
    rw [← h.names_eq, ← hx.names_eq]
    rfl
  length := by simp [h.length, hx.length]
  read d members hold := by
    rw [Members.Hold, List.zip_append h.length, List.forall_mem_append] at hold
    change fields.read d members <*> x.read d members = _
    rw [h.read d members hold.1, hx.read d members hold.2, pure_seq, map_pure]

theorem required (name : String) (h : Reads item v a) :
    FieldsRead (Fields.required name item) [name] [some v] a where
  names_eq := rfl
  length := rfl
  read d members hold := by
    have hlookup : members.lookup name = some (Node.ofValue v) := by simpa [Members.Hold] using hold
    simp [Fields.required, hlookup, h d]

/-- A field with a default is read where it is there. -/
theorem field (name : String) (default : α) (h : Reads item v a) :
    FieldsRead (Fields.field name item default) [name] [some v] a where
  names_eq := rfl
  length := rfl
  read d members hold := by
    have hlookup : members.lookup name = some (Node.ofValue v) := by simpa [Members.Hold] using hold
    simp [Fields.field, hlookup, h d]

/-- A field that is not there has its default. -/
theorem absent (item : Decoder α) (name : String) (default : α) :
    FieldsRead (Fields.field name item default) [name] [none] default where
  names_eq := rfl
  length := rfl
  read d members hold := by
    have hlookup : members.lookup name = none := by simpa [Members.Hold] using hold
    simp [Fields.field, hlookup]

end FieldsRead

/-! ### Records -/

/-- The members of an object by name. -/
def namedFields (fields : List (String × Value)) : List (String × Node) :=
  fields.map fun (k, v) => (k, Node.ofValue v)

theorem named_ofFields (d : Document) (fields : List (String × Value)) :
    named d (Node.ofFields fields) = pure (namedFields fields) := by
  induction fields with
  | nil => rfl
  | cons f fields ih =>
    have hkey : Decoder.text d (.scalar {} .quoted f.1) = pure f.1 := rfl
    rw [named] at ih
    rw [named, Node.ofFields, List.mapM_cons, ih]
    simp [hkey, namedFields]

theorem lookup_namedFields (fields : List (String × Value)) (name : String) :
    (namedFields fields).lookup name = (fields.lookup name).map Node.ofValue := by
  induction fields with
  | nil => rfl
  | cons f fields ih =>
    obtain ⟨k, v⟩ := f
    rw [namedFields, List.map_cons, List.lookup_cons, List.lookup_cons, ← namedFields, ih]
    cases name == k <;> rfl

theorem lookup_of_notMem {β : Type} {k : String} {l : List (String × β)}
    (h : k ∉ l.map Prod.fst) : l.lookup k = none := by
  rw [List.lookup_eq_none_iff]
  intro x hx
  have hne : k ≠ x.1 := fun heq => h (List.mem_map.mpr ⟨x, hx, heq.symm⟩)
  simpa using hne

theorem keys_presentFields (names : List String) (vs : List (Option Value)) :
    ((presentFields names vs).map Prod.fst).Sublist names := by
  induction names generalizing vs with
  | nil => exact List.nil_sublist _
  | cons name names ih =>
    match vs with
    | [] => exact List.nil_sublist _
    | none :: vs => exact (ih vs).cons name
    | some v :: vs => exact (ih vs).cons_cons name

theorem lookup_presentFields {names : List String} {vs : List (Option Value)}
    (hnames : names.Nodup) :
    ∀ x ∈ names.zip vs, (presentFields names vs).lookup x.1 = x.2 := by
  induction names generalizing vs with
  | nil => nofun
  | cons name names ih =>
    obtain ⟨hname, hnames⟩ := List.nodup_cons.mp hnames
    match vs with
    | [] => nofun
    | v :: vs =>
      -- the name of this field is not among those behind it
      have hrest : (presentFields names vs).lookup name = none :=
        lookup_of_notMem fun hmem => hname ((keys_presentFields names vs).subset hmem)
      rw [List.zip_cons_cons, List.forall_mem_cons, presentFields]
      refine ⟨?_, fun x hx => ?_⟩
      · simp [List.lookup_append, hrest]
      · have hne : x.1 ≠ name := by
          rintro rfl
          exact hname (List.of_mem_zip hx).1
        simp [List.lookup_append, hne, ih hnames x hx]

theorem checkNames_of_nodup {members : List (String × Node)} (known : List String)
    (h : (members.map Prod.fst).Nodup) : checkNames known members = .ok () := by
  induction members with
  | nil => rfl
  | cons m members ih =>
    obtain ⟨name, n⟩ := m
    obtain ⟨hname, hmembers⟩ := List.nodup_cons.mp h
    have hlookup : members.lookup name = none := lookup_of_notMem hname
    simp [checkNames, hlookup, ih hmembers]

/-- A record is read back from the object of its fields that are there. -/
theorem Reads.record {α : Type} {fields : Fields α} {names : List String}
    {vs : List (Option Value)} {a : α} (name : String) {members : List (String × Value)}
    (h : FieldsRead fields names vs a) (hnames : names.Nodup)
    (hmembers : members = presentFields names vs) :
    Reads (Decoder.record name fields) (.object members) a := by
  subst hmembers
  intro d
  have hnodup : ((namedFields (presentFields names vs)).map Prod.fst).Nodup := by
    rw [namedFields, List.map_map]
    exact (keys_presentFields names vs).nodup hnames
  have hhold : Members.Hold (namedFields (presentFields names vs)) names vs := fun x hx => by
    rw [lookup_namedFields, lookup_presentFields hnames x hx]
  simp only [Decoder.record, Node.ofValue, Document.members, Document.follow, pure_bind,
    named_ofFields, checkNames_of_nodup _ hnodup, liftM_ok, h.read d _ hhold]

theorem format_laws : format.Laws @Reads @FieldsRead where
  text := Reads.text
  bool := Reads.bool
  integer expected h _ := Reads.integer expected h
  natural expected h _ := Reads.natural expected h
  list as h := Reads.list as h
  optional h hv := h.optional hv
  variant h := Reads.variant h
  map h hb := h.map hb
  required name h := .required name h
  field name default h := .field name default h
  absent item name default := .absent item name default
  mapFields g h := h.map g
  seq hfields hx := hfields.seq hx
  record name _ h hnames hmembers := .record name h hnames hmembers

/-- A decoder that finds a value in an object finds it in the one-line form. -/
theorem decodeText_compact {α : Type} {item : Decoder α} {fields : List (String × Value)} {a : α}
    (hlegible : LegibleFields fields) (h : Reads item (.object fields) a) :
    decodeText item (Value.object fields).compact = .ok a := by
  rw [decodeText, Document.ofText_compact hlegible]
  change (item _ (Node.ofValue (.object fields))).run' 0 = .ok a
  rw [h]
  rfl

end Rollout.Yaml
