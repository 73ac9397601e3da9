/-
The one-line form of a JSON document, read as YAML tokens.

Inside brackets a scanner knows nothing of lines and blocks: each mark has its token, and only the
places where a key may have begun are kept on the way.

* `flowTokens`: the tokens of a document;
* `LegibleValue`: all texts of a document can be read on one line, and its names as keys as well;
* `Scanner.Calm`: the scanner stands inside brackets and waits for no key.  Every step keeps it so,
  and what is read stands in front of what was found before;
* `Cursor.Yields`: a way through the text, on which these tokens are found;
* `Cursor.Ready.yields_value`: the characters of a document are the way of its tokens;
* `tokens_compact`: the whole text.

A key is known as one only by the colon behind it, so that its place has to be remembered up to
there, which is done for `maxKey` bytes.
-/
import Rollout.Yaml.Token
import Rollout.Proofs.Yaml.Source

namespace Rollout.Yaml

open Json (Value)

/-! ### Documents -/

mutual

/-- The tokens of a document. -/
def flowTokens : Value → List Token
  | .null => [.scalar .plain "null"]
  | .bool b => [.scalar .plain (if b then "true" else "false")]
  | .int i => [.scalar .plain (toString i)]
  | .text s => [.scalar .quoted s]
  | .list items => .flowSequenceStart :: (itemTokens items ++ [.flowSequenceEnd])
  | .object fields => .flowMappingStart :: (fieldTokens fields ++ [.flowMappingEnd])

/-- The tokens between the brackets of a list. -/
def itemTokens : List Value → List Token
  | [] => []
  | [v] => flowTokens v
  | v :: w :: rest => flowTokens v ++ .flowEntry :: itemTokens (w :: rest)

/-- The tokens between the brackets of an object. -/
def fieldTokens : List (String × Value) → List Token
  | [] => []
  | [(k, v)] => .key :: .scalar .quoted k :: .value :: flowTokens v
  | (k, v) :: f :: rest =>
    .key :: .scalar .quoted k :: .value :: (flowTokens v ++ .flowEntry :: fieldTokens (f :: rest))

end

/-- A text that can be read on one line. -/
def LegibleText (t : String) : Prop :=
  ∀ c ∈ t.toList, Legible c

/-- A name that can be read as a key on one line. -/
def LegibleKey (k : String) : Prop :=
  LegibleText k ∧ width (Json.quote k) ≤ maxKey

instance : DecidablePred LegibleText := fun t =>
  List.decidableBAll Legible t.toList

instance : DecidablePred LegibleKey := fun _ => inferInstanceAs (Decidable (_ ∧ _))

mutual

/-- All texts and names of a document can be read on one line. -/
def LegibleValue : Value → Prop
  | .null | .bool _ | .int _ => True
  | .text t => LegibleText t
  | .list items => LegibleItems items
  | .object fields => LegibleFields fields

def LegibleItems : List Value → Prop
  | [] => True
  | v :: rest => LegibleValue v ∧ LegibleItems rest

def LegibleFields : List (String × Value) → Prop
  | [] => True
  | (k, v) :: rest => LegibleKey k ∧ LegibleValue v ∧ LegibleFields rest

end

namespace Scanner

variable {s s' : Scanner} {c : Cell} {cells : List Cell} {depth : Nat}

/-! ### Places of keys -/

/-- A key need not begin there. -/
def Optional (k : Option KeyPlace) : Prop :=
  ∀ place ∈ k, place.required = false

/-- The scanner stands in so many brackets and outside of any block, and no key is required. -/
structure Calm (depth : Nat) (s : Scanner) : Prop where
  depth : s.brackets.length = depth
  key : Optional s.key
  brackets : ∀ k ∈ s.brackets, Optional k
  outer : s.outer = []

/-- The scanner without the places where no key can have begun any more. -/
def fresh (s : Scanner) (c : Cell) : Scanner :=
  let keep (k : Option KeyPlace) := k.filter (!isStale c ·)
  { s with brackets := s.brackets.map keep, key := keep s.key }

theorem Calm.inFlow (h : s.Calm (depth + 1)) : s.inFlow = true := by
  have hlength := h.depth
  cases hb : s.brackets with
  | nil => simp [hb] at hlength
  | cons => simp [Scanner.inFlow, hb]

theorem dropStale_eq {k : Option KeyPlace} (h : Optional k) :
    dropStale c k = .ok (k.filter (!isStale c ·)) := by
  cases k with
  | none => rfl
  | some place =>
    have hplace : place.required = false := h place rfl
    by_cases hstale : isStale c place <;> simp [dropStale, hstale, hplace, Option.filter]

theorem Calm.dropStaleKeys (h : s.Calm depth) : s.dropStaleKeys c = .ok (s.fresh c) := by
  have hbrackets : s.brackets.mapM (dropStale c)
      = .ok (s.brackets.map fun k => k.filter (!isStale c ·)) := by
    have hall := h.brackets
    revert hall
    induction s.brackets with
    | nil => exact fun _ => rfl
    | cons k brackets ih =>
      intro hall
      obtain ⟨hk, hbrackets⟩ := List.forall_mem_cons.mp hall
      simp [List.mapM_cons, dropStale_eq hk, ih hbrackets, bind, Except.bind, pure, Except.pure]
  simp [Scanner.dropStaleKeys, hbrackets, dropStale_eq h.key, bind, Except.bind, fresh]

theorem optional_filter {k : Option KeyPlace} (h : Optional k) (p : KeyPlace → Bool) :
    Optional (k.filter p) := fun place hplace =>
  h place (Option.mem_filter_iff.mp hplace).1

theorem Calm.fresh (h : s.Calm depth) (c : Cell) : (s.fresh c).Calm depth where
  depth := by simpa [Scanner.fresh] using h.depth
  key := optional_filter h.key _
  brackets k hk := by
    obtain ⟨k', hk', rfl⟩ := List.mem_map.mp hk
    exact optional_filter (h.brackets k' hk') _
  outer := h.outer

theorem Calm.dropKey (h : s.Calm depth) : s.dropKey = .ok { s with key := none } := by
  cases hkey : s.key with
  | none =>
    simp only [Scanner.dropKey, hkey]
    rw [← hkey]
  | some place =>
    have hplace : place.required = false := h.key place hkey
    simp [Scanner.dropKey, hkey, hplace]

/-! ### Single steps -/

/-- What a token may begin with, whatever stands before it. -/
def Begins (c : Char) : Prop :=
  c ∉ [' ', '\t', '#', endMark] ∧ isBreak c = false

instance : DecidablePred Begins := fun _ => inferInstanceAs (Decidable (_ ∧ _))

theorem begins_of_isNameChar {c : Char} (h : isNameChar c = true) : Begins c := by
  have hmarks := notMem_marks h
  refine ⟨fun hmem => hmarks ?_, isBreak_of_notMem hmarks⟩
  have hsub : [' ', '\t', '#', endMark] ⊆ marks := by decide
  exact hsub hmem

theorem skipGap_of_begins {inFlow keyAllowed : Bool} (h : Begins c.char) :
    skipGap inFlow keyAllowed false (c :: cells) = (keyAllowed, c :: cells) := by
  obtain ⟨hc, hbreak⟩ := h
  simp only [List.mem_cons, List.not_mem_nil, or_false, not_or] at hc
  simp [skipGap, hc, hbreak]

/-- One token is read after the stale places are given up. -/
theorem Calm.scan_cons (h : s.Calm (depth + 1)) (hc : Begins c.char) {rest : List Cell}
    (hstep : (s.fresh c).stepAt c cells = .ok (s', rest)) (hrest : rest.length ≤ cells.length) :
    s.scan (c :: cells) = s'.scan rest := by
  have hend : c.char ≠ endMark := fun heq => hc.1 (by simp [heq])
  have hflow := (h.fresh c).inFlow
  have hlt : rest.length < (c :: cells).length := by simp; omega
  rw [scan]
  simp only [skipGap_of_begins hc, h.dropStaleKeys, unroll, hflow, beq_iff_eq, hend, hstep, hlt,
    ↓reduceIte]

theorem Calm.saveKey (h : s.Calm (depth + 1)) (c : Cell) :
    ∃ k, s.saveKey c = .ok { s with key := k } ∧ Optional k ∧
      (s.keyAllowed = true → k = some ⟨s.found.length, c, false⟩) := by
  by_cases hallowed : s.keyAllowed = true
  · refine ⟨some ⟨s.found.length, c, false⟩, ?_, ?_, fun _ => rfl⟩
    · simp [Scanner.saveKey, hallowed, h.inFlow, h.dropKey, bind, Except.bind]
    · rintro _ ⟨⟩
      rfl
  · exact ⟨s.key, by rw [Scanner.saveKey, if_neg hallowed], h.key, fun h' => absurd h' hallowed⟩

/-- A bracket opens. -/
theorem Calm.openBracket (h : s.Calm (depth + 1)) (c : Cell) (t : Token) :
    ∃ s', s.openBracket c t = .ok s' ∧ s'.Calm (depth + 2) ∧ s'.found = t :: s.found ∧
      s'.keyAllowed = true := by
  obtain ⟨k, hsave, hk, -⟩ := h.saveKey c
  have hopen : s.openBracket c t = .ok
      { s with found := t :: s.found, brackets := k :: s.brackets, key := none
               keyAllowed := true } := by
    rw [Scanner.openBracket, hsave]
    rfl
  refine ⟨_, hopen, ⟨by simp [h.depth], ?_, ?_, h.outer⟩, rfl, rfl⟩
  · rintro _ ⟨⟩
  · exact List.forall_mem_cons.mpr ⟨hk, h.brackets⟩

/-- A bracket closes. -/
theorem Calm.closeBracket (h : s.Calm (depth + 1)) (t : Token) :
    ∃ s', s.closeBracket t = .ok s' ∧ s'.Calm depth ∧ s'.found = t :: s.found := by
  obtain ⟨k, brackets, hbrackets⟩ : ∃ k brackets, s.brackets = k :: brackets :=
    List.exists_cons_of_length_eq_add_one h.depth
  have hclose : s.closeBracket t = .ok
      { s with found := t :: s.found, brackets, key := k, keyAllowed := false } := by
    rw [Scanner.closeBracket, h.dropKey]
    simp only [bind, Except.bind, hbrackets]
    rfl
  have hdepth := h.depth
  have hall := h.brackets
  rw [hbrackets] at hdepth hall
  obtain ⟨hk, hall⟩ := List.forall_mem_cons.mp hall
  exact ⟨_, hclose, ⟨by simpa using hdepth, hk, hall, h.outer⟩, rfl⟩

/-- A comma. -/
theorem Calm.flowEntry (h : s.Calm depth) :
    ∃ s', s.flowEntry = .ok s' ∧ s'.Calm depth ∧ s'.found = .flowEntry :: s.found ∧
      s'.keyAllowed = true := by
  have hentry : s.flowEntry = .ok
      { s with found := .flowEntry :: s.found, key := none, keyAllowed := true } := by
    rw [Scanner.flowEntry, h.dropKey]
    rfl
  refine ⟨_, hentry, ⟨h.depth, ?_, h.brackets, h.outer⟩, rfl, rfl⟩
  rintro _ ⟨⟩

/-- A scalar; a key may begin there if it is allowed. -/
theorem Calm.content (h : s.Calm (depth + 1)) (c : Cell) (t : Token) :
    ∃ s', s.content c t = .ok s' ∧ s'.Calm (depth + 1) ∧ s'.found = t :: s.found ∧
      (s.keyAllowed = true → s'.key = some ⟨s.found.length, c, false⟩) := by
  obtain ⟨k, hsave, hk, hplace⟩ := h.saveKey c
  have hcontent : s.content c t = .ok
      { s with found := t :: s.found, key := k, keyAllowed := false } := by
    rw [Scanner.content, hsave]
    rfl
  exact ⟨_, hcontent, ⟨h.depth, hk, h.brackets, h.outer⟩, rfl, hplace⟩

/-- A colon behind a scalar makes a key of it. -/
theorem Calm.valueMark (h : s.Calm (depth + 1)) (c : Cell) {t : Token} {found : List Token}
    {place : KeyPlace} (hkey : s.key = some place) (hfound : s.found = t :: found)
    (hnumber : place.number = found.length) :
    ∃ s', s.valueMark c = .ok s' ∧ s'.Calm (depth + 1) ∧
      s'.found = .value :: t :: .key :: found := by
  have hflow : (s.insertAt place.number .key).inFlow = true := h.inFlow
  -- the mark of the key goes in front of the scalar, which was found last
  have hinsert : (s.insertAt place.number .key).found = t :: .key :: found := by
    simp [insertAt, hfound, hnumber]
  have hvalue : s.valueMark c = .ok
      { s with found := .value :: t :: .key :: found, key := none, keyAllowed := false } := by
    rw [Scanner.valueMark, hkey, ← hinsert]
    simp only [roll, hflow, ↓reduceIte]
    rfl
  refine ⟨_, hvalue, ⟨h.depth, ?_, h.brackets, h.outer⟩, rfl⟩
  rintro _ ⟨⟩

section StepAt

variable (hcolumn : c.column ≠ 0)

include hcolumn

theorem stepAt_open {t : Token}
    (hc : (c.char, t) ∈ [('\x7b', Token.flowMappingStart), ('[', .flowSequenceStart)]) :
    s.stepAt c cells = andRest cells (s.openBracket c t) := by
  simp only [List.mem_cons, Prod.mk.injEq, List.not_mem_nil, or_false] at hc
  rcases hc with ⟨hc, rfl⟩ | ⟨hc, rfl⟩ <;>
    simp [stepAt, isDocumentMark_of_column, hcolumn, hc]

theorem stepAt_close {t : Token}
    (hc : (c.char, t) ∈ [('\x7d', Token.flowMappingEnd), (']', .flowSequenceEnd)]) :
    s.stepAt c cells = andRest cells (s.closeBracket t) := by
  simp only [List.mem_cons, Prod.mk.injEq, List.not_mem_nil, or_false] at hc
  rcases hc with ⟨hc, rfl⟩ | ⟨hc, rfl⟩ <;>
    simp [stepAt, isDocumentMark_of_column, hcolumn, hc]

theorem stepAt_comma (hc : c.char = ',') : s.stepAt c cells = andRest cells s.flowEntry := by
  simp [stepAt, isDocumentMark_of_column, hcolumn, hc]

theorem stepAt_colon (hc : c.char = ':') (hflow : s.inFlow = true) :
    s.stepAt c cells = andRest cells (s.valueMark c) := by
  simp [stepAt, isDocumentMark_of_column, hcolumn, hc, hflow]

theorem stepAt_quote (hc : c.char = '"') {text : String} {rest : List Cell}
    (htext : doubleQuoted [] {} .none cells = .ok (text, rest)) :
    s.stepAt c cells = andRest rest (s.content c (.scalar .quoted text)) := by
  simp [stepAt, isDocumentMark_of_column, hcolumn, hc, htext, bind, Except.bind]

theorem stepAt_word (hc : isNameChar c.char = true) (hnext : isBlankOrEnd (charAt cells) = false) :
    s.stepAt c cells = s.plainScalar c (c :: cells) := by
  have hmarks := notMem_marks hc
  simp only [marks, List.mem_cons, not_or] at hmarks
  -- a dash begins a word unless a blank stands behind it
  have hplain : beginsPlain s.inFlow c.char (charAt cells) = true := by
    by_cases hdash : c.char = '-'
    · simp_all [beginsPlain, isBlankOrEnd]
    · simp [beginsPlain, isBlankOrEnd, isBreakOrEnd, isBlank, isBreak, isIndicator, hmarks, hdash]
  simp [stepAt, isDocumentMark_of_column, hcolumn, hmarks, hnext, hplain]

end StepAt

end Scanner

/-! ### Ways through a text -/

open Scanner (Begins Calm)

/-- A scanner in the middle of the first line, with the rest of the text. -/
structure Cursor where
  state : Scanner
  column : Nat
  offset : Nat
  rest : List Char

namespace Cursor

/-- The rest of the text with its places. -/
def cells (u : Cursor) : List Cell :=
  locate 0 u.column u.offset u.rest

/-- The cell at which a character stands here. -/
def cell (u : Cursor) (c : Char) : Cell :=
  ⟨c, 0, u.column, u.offset⟩

/-- Behind some characters, in another state. -/
def advance (u : Cursor) (cs rest : List Char) (s : Scanner) : Cursor :=
  ⟨s, u.column + cs.length, u.offset + width cs, rest⟩

/-- Behind the first character of the line, in so many brackets. -/
structure Ready (depth : Nat) (u : Cursor) : Prop where
  calm : u.state.Calm depth
  column : u.column ≠ 0

/-- These tokens are read on the way from one place to another. -/
structure Yields (u : Cursor) (ts : List Token) (depth : Nat) (u' : Cursor) : Prop where
  ready : u'.Ready depth
  found : u'.state.found = ts.reverse ++ u.state.found
  scan_eq : u.state.scan u.cells = u'.state.scan u'.cells

variable {u u' u'' : Cursor} {depth depth' : Nat} {cs rest : List Char} {ts us : List Token}

theorem Yields.trans (h : u.Yields ts depth u') (h' : u'.Yields us depth' u'') :
    u.Yields (ts ++ us) depth' u'' where
  ready := h'.ready
  found := by simp [h'.found, h.found]
  scan_eq := h.scan_eq.trans h'.scan_eq

/-- One step goes behind the characters that it takes. -/
theorem Ready.scan_advance (h : u.Ready (depth + 1)) (cs : List Char) {m : Char}
    (hu : u.rest = m :: (cs ++ rest)) (hm : Begins m) (hcs : Unbroken cs) {s' : Scanner}
    (hstep : (u.state.fresh (u.cell m)).stepAt (u.cell m)
        (locate 0 (u.column + 1) (u.offset + m.utf8Size) (cs ++ rest))
      = .ok (s', (u.advance (m :: cs) rest s').cells)) :
    u.state.scan u.cells = s'.scan (u.advance (m :: cs) rest s').cells := by
  rw [cells, hu, locate_cons hm.2]
  refine h.calm.scan_cons hm hstep ?_
  rw [length_locate_append hcs]
  simp only [cells, advance, List.length_cons, width_cons, Nat.add_assoc, Nat.add_comm 1]
  omega

theorem Ready.advance (h : u.Ready depth) {s' : Scanner} (hs' : s'.Calm depth')
    (cs rest : List Char) : (u.advance cs rest s').Ready depth' :=
  ⟨hs', by simp [Cursor.advance, h.column]⟩

theorem Ready.yields_open (h : u.Ready (depth + 1)) {m : Char} {t : Token}
    (hu : u.rest = m :: rest)
    (hm : (m, t) ∈ [('\x7b', Token.flowMappingStart), ('[', .flowSequenceStart)]) :
    ∃ u', u.Yields [t] (depth + 2) u' ∧ u'.rest = rest ∧ u'.state.keyAllowed = true := by
  obtain ⟨s', hopen, hcalm, hfound, hallowed⟩ := (h.calm.fresh (u.cell m)).openBracket (u.cell m) t
  refine ⟨u.advance [m] rest s', ⟨h.advance hcalm _ _, hfound, ?_⟩, rfl, hallowed⟩
  refine h.scan_advance [] hu (by fin_cases hm <;> decide) nofun ?_
  rw [Scanner.stepAt_open h.column hm, hopen]
  rfl

theorem Ready.yields_close (h : u.Ready (depth + 1)) {m : Char} {t : Token}
    (hu : u.rest = m :: rest)
    (hm : (m, t) ∈ [('\x7d', Token.flowMappingEnd), (']', .flowSequenceEnd)]) :
    ∃ u', u.Yields [t] depth u' ∧ u'.rest = rest := by
  obtain ⟨s', hclose, hcalm, hfound⟩ := (h.calm.fresh (u.cell m)).closeBracket t
  refine ⟨u.advance [m] rest s', ⟨h.advance hcalm _ _, hfound, ?_⟩, rfl⟩
  refine h.scan_advance [] hu (by fin_cases hm <;> decide) nofun ?_
  rw [Scanner.stepAt_close h.column hm, hclose]
  rfl

theorem Ready.yields_comma (h : u.Ready (depth + 1)) (hu : u.rest = ',' :: rest) :
    ∃ u', u.Yields [.flowEntry] (depth + 1) u' ∧ u'.rest = rest ∧
      u'.state.keyAllowed = true := by
  obtain ⟨s', hentry, hcalm, hfound, hallowed⟩ := (h.calm.fresh (u.cell ',')).flowEntry
  refine ⟨u.advance [','] rest s', ⟨h.advance hcalm _ _, hfound, ?_⟩, rfl, hallowed⟩
  refine h.scan_advance [] hu (by decide) nofun ?_
  rw [Scanner.stepAt_comma h.column rfl, hentry]
  rfl

/-- A quoted text; a key may begin there if it is allowed. -/
theorem Ready.yields_quote (h : u.Ready (depth + 1)) {t : String} (ht : LegibleText t)
    (hu : u.rest = Json.quote t ++ rest) :
    ∃ u', u.Yields [.scalar .quoted t] (depth + 1) u' ∧ u'.rest = rest ∧
      u'.column = u.column + (Json.quote t).length ∧ u'.offset = u.offset + width (Json.quote t) ∧
      (u.state.keyAllowed = true →
        u'.state.key = some ⟨u.state.found.length, u.cell '"', false⟩) := by
  obtain ⟨s', hcontent, hcalm, hfound, hkey⟩ :=
    (h.calm.fresh (u.cell '"')).content (u.cell '"') (.scalar .quoted t)
  have htext : doubleQuoted [] {} .none (locate 0 (u.column + 1) (u.offset + Char.utf8Size '"')
        (t.toList.flatMap Json.escapeChar ++ '"' :: rest))
      = .ok (t, (u.advance (Json.quote t) rest s').cells) := by
    rw [doubleQuoted_escaped ht rfl (Nat.succ_ne_zero u.column)]
    simp [ofReversed, cells, Cursor.advance, Json.quote, Nat.add_assoc, Nat.add_comm 1]
  have hunbroken := (List.forall_mem_cons.mp (unbroken_quote ht)).2
  refine ⟨u.advance (Json.quote t) rest s', ⟨h.advance hcalm _ _, hfound, ?_⟩, rfl, rfl, rfl, hkey⟩
  refine h.scan_advance _ hu (by decide) hunbroken ?_
  rw [List.append_assoc, List.singleton_append, Scanner.stepAt_quote h.column rfl htext, hcontent]
  rfl

/-- A word or a number. -/
theorem Ready.yields_word (h : u.Ready (depth + 1)) (hne : cs ≠ [])
    (hcs : ∀ c ∈ cs, isNameChar c = true) (hrest : FlowEnd rest) (hu : u.rest = cs ++ rest) :
    ∃ u', u.Yields [.scalar .plain (String.ofList cs)] (depth + 1) u' ∧ u'.rest = rest := by
  obtain ⟨c, cs, rfl⟩ := List.exists_cons_of_ne_nil hne
  have hunbroken : Unbroken (c :: cs) := fun x hx => isBreak_of_notMem (notMem_marks (hcs x hx))
  obtain ⟨hc, hcs'⟩ := List.forall_mem_cons.mp hcs
  have hfresh := h.calm.fresh (u.cell c)
  obtain ⟨s', hcontent, hcalm, hfound, -⟩ :=
    hfresh.content (u.cell c) (.scalar .plain (String.ofList (c :: cs)))
  have hplain (indent : Nat) : plain true indent [] {} false
      (u.cell c :: locate 0 (u.column + 1) (u.offset + c.utf8Size) (cs ++ rest))
      = .ok ⟨String.ofList (c :: cs), false, (u.advance (c :: cs) rest s').cells⟩ := by
    have hcells : u.cell c :: locate 0 (u.column + 1) (u.offset + c.utf8Size) (cs ++ rest)
        = locate 0 u.column u.offset (c :: cs ++ rest) :=
      (locate_cons (hunbroken c List.mem_cons_self)).symm
    rw [hcells, plain_word hcs hrest h.column, List.append_nil, ofReversed, List.reverse_reverse]
    rfl
  have hcalm' : Calm (depth + 1) { s' with keyAllowed := false } :=
    ⟨hcalm.depth, hcalm.key, hcalm.brackets, hcalm.outer⟩
  refine ⟨u.advance (c :: cs) rest _, ⟨h.advance hcalm' _ _, hfound, ?_⟩, rfl⟩
  have hbegins := Scanner.begins_of_isNameChar hc
  refine h.scan_advance _ hu hbegins (List.forall_mem_cons.mp hunbroken).2 ?_
  rw [Scanner.stepAt_word h.column hc (isBlankOrEnd_charAt hcs' hrest), Scanner.plainScalar,
    hfresh.inFlow, hplain]
  simp only [bind, Except.bind, hcontent]
  rfl

/-- A key with its colon, where a key may begin. -/
theorem Ready.yields_key (h : u.Ready (depth + 1)) (hallowed : u.state.keyAllowed = true)
    {k : String} (hk : LegibleKey k) (hu : u.rest = Json.quote k ++ ':' :: rest) :
    ∃ u', u.Yields [.key, .scalar .quoted k, .value] (depth + 1) u' ∧ u'.rest = rest := by
  obtain ⟨v, hv, hrest, hcolumn, hoffset, hkey⟩ := h.yields_quote hk.1 hu
  -- the colon is near enough to the place where the key began
  have hfresh : (v.state.fresh (v.cell ':')).key
      = some ⟨u.state.found.length, u.cell '"', false⟩ := by
    have hwidth := hk.2
    have hstale : ¬ u.offset + maxKey < v.offset := by omega
    simp [Scanner.fresh, hkey hallowed, Scanner.isStale, cell, hstale]
  obtain ⟨s', hvalue, hcalm, hfound⟩ :=
    (hv.ready.calm.fresh (v.cell ':')).valueMark (v.cell ':') hfresh hv.found rfl
  refine ⟨v.advance [':'] rest s', ⟨hv.ready.advance hcalm _ _, hfound, ?_⟩, rfl⟩
  refine hv.scan_eq.trans (hv.ready.scan_advance [] hrest (by decide) nofun ?_)
  rw [Scanner.stepAt_colon hv.ready.column rfl (hv.ready.calm.fresh _).inFlow, hvalue]
  rfl

/-! ### Documents inside brackets -/

mutual

/-- The characters of a document inside brackets yield its tokens. -/
theorem Ready.yields_value (v : Value) (hv : LegibleValue v) {u : Cursor} {depth : Nat}
    (h : u.Ready (depth + 1)) {rest : List Char} (hrest : FlowEnd rest)
    (hu : u.rest = v.compactChars ++ rest) :
    ∃ u', u.Yields (flowTokens v) (depth + 1) u' ∧ u'.rest = rest := by
  -- what stands behind a word has to end it; behind an item or a member that is a mark
  match v with
  | .null => exact h.yields_word (by decide) (List.all_eq_true.mp (by decide)) hrest hu
  | .bool b =>
    cases b <;> exact h.yields_word (by decide) (List.all_eq_true.mp (by decide)) hrest hu
  | .int i =>
    obtain ⟨u', hu', hrest'⟩ := h.yields_word (digits_ne_nil i) (isNameChar_digits i) hrest hu
    rw [Json.digits, String.ofList_toList] at hu'
    exact ⟨u', hu', hrest'⟩
  | .text t =>
    obtain ⟨u', hu', hrest', -⟩ := h.yields_quote hv hu
    exact ⟨u', hu', hrest'⟩
  | .list items =>
    rw [Value.compactChars, List.cons_append, List.append_assoc, List.singleton_append] at hu
    obtain ⟨u₁, h₁, hrest₁, -⟩ := h.yields_open (t := .flowSequenceStart) hu (by decide)
    obtain ⟨u₂, h₂, hrest₂⟩ := h₁.ready.yields_items items hv ⟨']', rest, rfl, by decide⟩ hrest₁
    obtain ⟨u₃, h₃, hrest₃⟩ := h₂.ready.yields_close (t := .flowSequenceEnd) hrest₂ (by decide)
    exact ⟨u₃, h₁.trans (h₂.trans h₃), hrest₃⟩
  | .object fields =>
    rw [Value.compactChars, List.cons_append, List.append_assoc, List.singleton_append] at hu
    obtain ⟨u₁, h₁, hrest₁, hallowed⟩ := h.yields_open (t := .flowMappingStart) hu (by decide)
    obtain ⟨u₂, h₂, hrest₂⟩ :=
      h₁.ready.yields_fields fields hv hallowed ⟨'\x7d', rest, rfl, by decide⟩ hrest₁
    obtain ⟨u₃, h₃, hrest₃⟩ := h₂.ready.yields_close (t := .flowMappingEnd) hrest₂ (by decide)
    exact ⟨u₃, h₁.trans (h₂.trans h₃), hrest₃⟩

theorem Ready.yields_items (items : List Value) (hitems : LegibleItems items) {u : Cursor}
    {depth : Nat} (h : u.Ready (depth + 1)) {rest : List Char} (hrest : FlowEnd rest)
    (hu : u.rest = Value.compactItems items ++ rest) :
    ∃ u', u.Yields (itemTokens items) (depth + 1) u' ∧ u'.rest = rest := by
  match items with
  | [] => exact ⟨u, ⟨h, rfl, rfl⟩, hu⟩
  | [v] => exact h.yields_value v hitems.1 hrest hu
  | v :: w :: items =>
    rw [Value.compactItems, List.append_assoc, List.cons_append] at hu
    obtain ⟨u₁, h₁, hrest₁⟩ := h.yields_value v hitems.1 ⟨',', _, rfl, by decide⟩ hu
    obtain ⟨u₂, h₂, hrest₂, -⟩ := h₁.ready.yields_comma hrest₁
    obtain ⟨u₃, h₃, hrest₃⟩ := h₂.ready.yields_items (w :: items) hitems.2 hrest hrest₂
    exact ⟨u₃, h₁.trans (h₂.trans h₃), hrest₃⟩

theorem Ready.yields_fields (fields : List (String × Value)) (hfields : LegibleFields fields)
    {u : Cursor} {depth : Nat} (h : u.Ready (depth + 1)) (hallowed : u.state.keyAllowed = true)
    {rest : List Char} (hrest : FlowEnd rest) (hu : u.rest = Value.compactFields fields ++ rest) :
    ∃ u', u.Yields (fieldTokens fields) (depth + 1) u' ∧ u'.rest = rest := by
  match fields with
  | [] => exact ⟨u, ⟨h, rfl, rfl⟩, hu⟩
  | [(k, v)] =>
    obtain ⟨hk, hv, -⟩ := hfields
    rw [Value.compactFields, List.append_assoc, List.cons_append] at hu
    obtain ⟨u₁, h₁, hrest₁⟩ := h.yields_key hallowed hk hu
    obtain ⟨u₂, h₂, hrest₂⟩ := h₁.ready.yields_value v hv hrest hrest₁
    exact ⟨u₂, h₁.trans h₂, hrest₂⟩
  | (k, v) :: f :: fields =>
    obtain ⟨hk, hv, hmore⟩ := hfields
    rw [Value.compactFields, List.append_assoc, List.cons_append, List.append_assoc,
      List.cons_append] at hu
    obtain ⟨u₁, h₁, hrest₁⟩ := h.yields_key hallowed hk hu
    obtain ⟨u₂, h₂, hrest₂⟩ := h₁.ready.yields_value v hv ⟨',', _, rfl, by decide⟩ hrest₁
    obtain ⟨u₃, h₃, hrest₃, hallowed₃⟩ := h₂.ready.yields_comma hrest₂
    obtain ⟨u₄, h₄, hrest₄⟩ := h₃.ready.yields_fields (f :: fields) hmore hallowed₃ hrest hrest₃
    exact ⟨u₄, h₁.trans (h₂.trans (h₃.trans h₄)), hrest₄⟩

end

end Cursor

/-! ### Whole texts -/

/-- Outside of brackets, the end of the text ends the tokens. -/
theorem Scanner.Calm.scan_end {s : Scanner} (h : s.Calm 0) (column offset : Nat) :
    s.scan [⟨endMark, 0, column, offset⟩] = .ok s.found.reverse := by
  have hfresh := h.fresh ⟨endMark, 0, column, offset⟩
  have hskip : skipGap s.inFlow s.keyAllowed false [⟨endMark, 0, column, offset⟩]
      = (s.keyAllowed, [⟨endMark, 0, column, offset⟩]) := by
    simp [skipGap, isBreak, endMark]
  -- no block is open that would end here
  have hunroll {t : Scanner} (ht : t.Calm 0) (n : Int) : t.unroll n = t := by
    rw [unroll, ht.outer, unrollFrom, ite_self]
  rw [scan]
  simp only [hskip, h.dropStaleKeys, hunroll hfresh, topLevel, hfresh.dropKey, beq_self_eq_true,
    ↓reduceIte, bind, Except.bind, Except.map]
  rfl

mutual

theorem all_isAllowed_compactChars (v : Value) (hv : LegibleValue v) :
    v.compactChars.all isAllowed = true := by
  match v with
  | .null => decide
  | .bool b => cases b <;> decide
  | .int i =>
    exact List.all_eq_true.mpr fun c hc => isAllowed_of_isNameChar (isNameChar_digits i c hc)
  | .text t => exact all_isAllowed_quote hv
  | .list items => simp [Value.compactChars, all_isAllowed_compactItems items hv, isAllowed]
  | .object fields => simp [Value.compactChars, all_isAllowed_compactFields fields hv, isAllowed]

theorem all_isAllowed_compactItems (items : List Value) (hitems : LegibleItems items) :
    (Value.compactItems items).all isAllowed = true := by
  match items with
  | [] => rfl
  | [v] => exact all_isAllowed_compactChars v hitems.1
  | v :: w :: items =>
    simp [Value.compactItems, all_isAllowed_compactChars v hitems.1,
      all_isAllowed_compactItems (w :: items) hitems.2, isAllowed]

theorem all_isAllowed_compactFields (fields : List (String × Value))
    (hfields : LegibleFields fields) : (Value.compactFields fields).all isAllowed = true := by
  match fields with
  | [] => rfl
  | [(k, v)] =>
    simp [Value.compactFields, all_isAllowed_quote hfields.1.1,
      all_isAllowed_compactChars v hfields.2.1, isAllowed]
  | (k, v) :: f :: fields =>
    simp [Value.compactFields, all_isAllowed_quote hfields.1.1,
      all_isAllowed_compactChars v hfields.2.1,
      all_isAllowed_compactFields (f :: fields) hfields.2.2, isAllowed]

end

/-- The scanner behind the first bracket of a text.  A key may begin there as well, but it need not:
no block stands at this column. -/
def inFirstBracket : Scanner where
  found := [.flowMappingStart]
  brackets := [some ⟨0, ⟨'\x7b', 0, 0, 0⟩, false⟩]

theorem calm_inFirstBracket : inFirstBracket.Calm 1 := by
  refine ⟨rfl, nofun, ?_, rfl⟩
  rintro _ (_ | ⟨_, ⟨⟩⟩) _ ⟨⟩
  rfl

theorem scan_firstBracket (cells : List Cell) :
    Scanner.scan {} (⟨'\x7b', 0, 0, 0⟩ :: cells) = inFirstBracket.scan cells := by
  have hmark (mark : Char) (h : '\x7b' ≠ mark) :
      isDocumentMark mark (⟨'\x7b', 0, 0, 0⟩ :: cells) = false := isDocumentMark_of_ne (.inr h)
  have hstep : Scanner.stepAt {} ⟨'\x7b', 0, 0, 0⟩ cells = .ok (inFirstBracket, cells) := by
    simp only [Scanner.stepAt, hmark '-' (by decide), hmark '.' (by decide)]
    rfl
  have hunroll : Scanner.unroll {} 0 = {} := rfl
  have hdrop : Scanner.dropStaleKeys {} ⟨'\x7b', 0, 0, 0⟩ = .ok {} := rfl
  rw [Scanner.scan, Scanner.skipGap_of_begins (show Begins '\x7b' by decide)]
  simp [hdrop, hunroll, hstep, endMark]

/-- **JSON texts are YAML texts**: the one-line form of an object gives its tokens. -/
theorem tokens_compact (fields : List (String × Value)) (h : LegibleFields fields) :
    tokens (Value.object fields).compact = .ok (flowTokens (.object fields)) := by
  have hallowed := all_isAllowed_compactChars (.object fields) h
  have hcells : cells (Value.object fields).compact
      = .ok (locate 0 0 0 (Value.object fields).compactChars) := by
    simp [cells, Value.compact, hallowed]
  -- the first bracket stands outside of all brackets, so the way begins behind it
  have h₁ : Cursor.Ready 1 ⟨inFirstBracket, 1, 1, Value.compactFields fields ++ ['\x7d']⟩ :=
    ⟨calm_inFirstBracket, Nat.one_ne_zero⟩
  obtain ⟨u₂, h₂, hrest₂⟩ := h₁.yields_fields fields h rfl ⟨'\x7d', [], rfl, by decide⟩ rfl
  obtain ⟨u₃, h₃, hrest₃⟩ := h₂.ready.yields_close (t := .flowMappingEnd) hrest₂ (by decide)
  have hscan := (h₂.trans h₃).scan_eq
  rw [Cursor.cells, Cursor.cells, hrest₃, locate, h₃.ready.calm.scan_end] at hscan
  rw [tokens, hcells]
  simp only [bind, Except.bind]
  rw [Value.compactChars, locate_cons (by decide), withoutMark, if_neg (by simp [charAt]),
    scan_firstBracket]
  refine hscan.trans ?_
  rw [(h₂.trans h₃).found]
  simp [flowTokens, inFirstBracket]

end Rollout.Yaml
