/-
What a reader of a log makes of a body, however the body is cut into pieces.

* `Body.lines` and `Body.rest` cut all bytes of a body at once: what stands before each line end,
  and what stands behind the last one;
* `cutLines_append`: cutting goes on where it stopped, so the pieces do not matter
  (`logItemsAfter_bytes`);
* `LogReader.gives_iff`: a reader gives the lines, the failure if there is one, the rest if there
  is one, and then it ends;
* `FollowerState.run_logEvents`: a follower shows every line, and the rest unless the body failed.

Design notes: a reader holds on to what it has when a body fails, and gives it behind the failure.
A follower stops at the failure, so nobody asks for that.
-/
import Mathlib.Data.List.Basic
import Rollout.Kubernetes.LogLines
import Rollout.Proofs.Text.Utf8

namespace Rollout.Kubernetes

/-! ### Bodies -/

/-- A body as it comes: its bytes in pieces, and then its end or a failure. -/
structure Body where
  chunks : List Bytes
  failure : Option ClusterError := none
  deriving DecidableEq, Repr

namespace Body

variable (b : Body)

/-- What a reader is brought, piece by piece. -/
def pieces : List Piece := b.chunks.map .bytes ++ b.failure.toList.map .failure

def bytes : Bytes := b.chunks.flatten

/-- What stands before each line end. -/
def lines : List Bytes := (b.bytes.splitOn lineEnd).dropLast

/-- What stands behind the last line end. -/
def rest : Bytes := (b.bytes.splitOn lineEnd).getLastD []

/-- The rest as a line, unless it is empty. -/
def restLine : List Bytes := if b.rest = [] then [] else [b.rest]

/-- What a reader is to give: the lines, the failure, and the rest. -/
def items : List LogItem :=
  b.lines.map .ofLine ++ b.failure.toList.map .error ++ b.restLine.map .ofLine

end Body

/-! ### Cutting -/

theorem cutLines_cons_of_ne {x : UInt8} (hx : x ≠ lineEnd) (bs : Bytes) :
    (cutLines (x :: bs)).1 ++ [(cutLines (x :: bs)).2]
      = ((cutLines bs).1 ++ [(cutLines bs).2]).modifyHead (x :: ·) := by
  rw [cutLines, if_neg (by simpa using hx)]
  obtain ⟨lines, rest⟩ := cutLines bs
  cases lines <;> rfl

/-- Bytes are cut at every line end, and only there. -/
theorem splitOn_lineEnd (bs : Bytes) :
    bs.splitOn lineEnd = (cutLines bs).1 ++ [(cutLines bs).2] := by
  induction bs with
  | nil => rfl
  | cons x bs ih =>
    rw [List.splitOn_cons_eq_if_modifyHead, ih]
    by_cases hx : x = lineEnd
    · subst hx
      simp [cutLines]
    · rw [cutLines_cons_of_ne hx, if_neg (by simpa using hx)]

theorem Body.lines_eq (b : Body) : b.lines = (cutLines b.bytes).1 := by
  rw [lines, splitOn_lineEnd, List.dropLast_concat]

theorem Body.rest_eq (b : Body) : b.rest = (cutLines b.bytes).2 := by
  rw [rest, splitOn_lineEnd, List.getLastD_concat]

/-- Cutting goes on where it stopped. -/
theorem cutLines_append (xs ys : Bytes) :
    cutLines (xs ++ ys)
      = ((cutLines xs).1 ++ (cutLines ((cutLines xs).2 ++ ys)).1,
        (cutLines ((cutLines xs).2 ++ ys)).2) := by
  induction xs with
  | nil => rfl
  | cons x xs ih =>
    rw [List.cons_append, cutLines, cutLines]
    split
    · rw [ih]
      rfl
    · next hx =>
      rw [ih]
      obtain ⟨lines, rest⟩ := cutLines xs
      cases lines with
      | nil =>
        -- the byte belongs to the line that goes on
        rw [List.nil_append, List.cons_append, cutLines, if_neg hx]
        obtain ⟨lines, rest⟩ := cutLines (rest ++ ys)
        cases lines <;> rfl
      | cons line lines => rfl

/-- What is left has no line end. -/
theorem lineEnd_notMem_cutLines (bs : Bytes) :
    (∀ line ∈ (cutLines bs).1, lineEnd ∉ line) ∧ lineEnd ∉ (cutLines bs).2 := by
  induction bs with
  | nil => simp [cutLines]
  | cons x bs ih =>
    rw [cutLines]
    split
    · exact ⟨List.forall_mem_cons.mpr ⟨List.not_mem_nil, ih.1⟩, ih.2⟩
    · next hx =>
      have hne : lineEnd ≠ x := fun h => hx (h ▸ beq_self_eq_true lineEnd)
      generalize cutLines bs = cut at ih
      obtain ⟨lines, rest⟩ := cut
      cases lines with
      | nil => exact ⟨ih.1, by simpa [hne] using ih.2⟩
      | cons line lines =>
        obtain ⟨hlines, hrest⟩ := ih
        obtain ⟨hline, hlines⟩ := List.forall_mem_cons.mp hlines
        exact ⟨List.forall_mem_cons.mpr ⟨by simpa [hne] using hline, hlines⟩, hrest⟩

theorem cutLines_of_notMem {bs : Bytes} (h : lineEnd ∉ bs) : cutLines bs = ([], bs) := by
  induction bs with
  | nil => rfl
  | cons x bs ih =>
    have hx : x ≠ lineEnd := fun hx => h (hx ▸ List.mem_cons_self)
    rw [cutLines, if_neg (by simpa using hx), ih fun hmem => h (List.mem_cons_of_mem x hmem)]

/-- A reader looks for the line that is cut first. -/
theorem cutLines_eq (bs : Bytes) :
    cutLines bs = match firstLine? bs with
      | some (line, rest) => (line :: (cutLines rest).1, (cutLines rest).2)
      | none => ([], bs) := by
  induction bs with
  | nil => rfl
  | cons x bs ih =>
    rw [cutLines, firstLine?]
    split
    · rfl
    · rw [ih]
      cases firstLine? bs <;> rfl

theorem firstLine?_cutLines (bs : Bytes) : firstLine? (cutLines bs).2 = none := by
  have hcut := cutLines_eq (cutLines bs).2
  rw [cutLines_of_notMem (lineEnd_notMem_cutLines bs).2] at hcut
  split at hcut
  · simp at hcut
  · assumption

theorem logItemsAfter_cons (buffer bs : Bytes) (more : List Piece) :
    logItemsAfter buffer (.bytes bs :: more)
      = (cutLines (buffer ++ bs)).1.map .ofLine ++ logItemsAfter (cutLines (buffer ++ bs)).2 more :=
  rfl

/-- The lines in the bytes that a body has brought do not depend on its pieces. -/
theorem logItemsAfter_bytes {buffer : Bytes} (h : lineEnd ∉ buffer) (chunks : List Bytes)
    (more : List Piece) :
    logItemsAfter buffer (chunks.map .bytes ++ more)
      = (cutLines (buffer ++ chunks.flatten)).1.map .ofLine
        ++ logItemsAfter (cutLines (buffer ++ chunks.flatten)).2 more := by
  induction chunks generalizing buffer with
  | nil => simp [cutLines_of_notMem h]
  | cons c chunks ih =>
    rw [List.map_cons, List.cons_append, logItemsAfter_cons,
      ih (lineEnd_notMem_cutLines (buffer ++ c)).2, List.flatten_cons,
      ← List.append_assoc buffer, cutLines_append (buffer ++ c), List.map_append,
      List.append_assoc]

theorem logItems_pieces (b : Body) : logItems b.pieces = b.items := by
  have hrest : unfinished b.rest = b.restLine.map .ofLine := by
    rw [unfinished, Body.restLine]
    cases b.rest <;> rfl
  rw [logItems, Body.pieces, logItemsAfter_bytes List.not_mem_nil, List.nil_append, Body.items,
    b.lines_eq, ← hrest, b.rest_eq, List.append_assoc]
  cases b.failure <;> rfl

/-! ### One item at a time -/

namespace LogReader

section Next

variable {buffer : Bytes}

theorem next_line {line rest : Bytes} (h : firstLine? buffer = some (line, rest))
    (pieces : List Piece) (ended : Bool) :
    next ⟨pieces, buffer, ended⟩ = some (.ofLine line, ⟨pieces, rest, ended⟩) := by
  rw [next.eq_def]
  simp only [h]

variable (h : firstLine? buffer = none) (more : List Piece)

include h

theorem next_over : next ⟨more, buffer, true⟩
    = if buffer.isEmpty then none else some (.ofLine buffer, ⟨more, [], true⟩) := by
  rw [next.eq_def]
  simp only [h]

theorem next_end : next ⟨[], buffer, false⟩ = next ⟨[], buffer, true⟩ := by
  rw [next.eq_def]
  simp only [h]

theorem next_failure (e : ClusterError) :
    next ⟨.failure e :: more, buffer, false⟩ = some (.error e, ⟨more, buffer, true⟩) := by
  rw [next.eq_def]
  simp only [h]

theorem next_bytes (bs : Bytes) :
    next ⟨.bytes bs :: more, buffer, false⟩ = next ⟨more, buffer ++ bs, false⟩ := by
  rw [next.eq_def]
  simp only [h]

end Next

/-- What a reader gives depends on its next item alone. -/
theorem Gives.congr {r r' : LogReader} {is : List LogItem} (h : Gives r is)
    (hn : r'.next = r.next) : Gives r' is := by
  cases h with
  | ends h => exact .ends (hn.trans h)
  | item h hs => exact .item (hn.trans h) hs

/-- A reader gives one thing only. -/
theorem Gives.unique {r : LogReader} {is js : List LogItem} (h : Gives r is) (h' : Gives r js) :
    is = js := by
  induction h generalizing js with
  | ends h =>
    cases h' with
    | ends _ => rfl
    | item h' _ => rw [h] at h'; cases h'
  | item h _ ih =>
    cases h' with
    | ends h' => rw [h] at h'; cases h'
    | item h' hs' =>
      rw [h] at h'
      obtain ⟨rfl, rfl⟩ : _ = _ ∧ _ = _ := by simpa using h'
      rw [ih hs']

/-- The lines of the buffer come first. -/
theorem gives_lines (pieces : List Piece) (ended : Bool) {is : List LogItem} (buffer : Bytes)
    (h : Gives ⟨pieces, (cutLines buffer).2, ended⟩ is) :
    Gives ⟨pieces, buffer, ended⟩ ((cutLines buffer).1.map .ofLine ++ is) := by
  generalize hlines : (cutLines buffer).1 = lines
  induction lines generalizing buffer with
  | nil =>
    have hcut := cutLines_eq buffer
    split at hcut
    · rw [hcut] at hlines
      cases hlines
    · rw [hcut] at h
      exact h
  | cons line lines ih =>
    have hcut := cutLines_eq buffer
    split at hcut
    · next first rest hfirst =>
      rw [hcut] at hlines h
      obtain ⟨rfl, hmore⟩ := List.cons.inj hlines
      exact .item (next_line hfirst pieces ended) (ih rest h hmore)
    · rw [hcut] at hlines
      cases hlines

theorem gives_unfinished (pieces : List Piece) {buffer : Bytes} (h : firstLine? buffer = none) :
    Gives ⟨pieces, buffer, true⟩ (unfinished buffer) := by
  rw [unfinished]
  split
  · next hempty => exact .ends ((next_over h pieces).trans (if_pos hempty))
  · next hempty =>
    exact .item ((next_over h pieces).trans (if_neg hempty)) (.ends (next_over rfl pieces))

/-- A reader gives the items of the pieces to come, and ends. -/
theorem gives_logItemsAfter {buffer : Bytes} (h : firstLine? buffer = none)
    (pieces : List Piece) : Gives ⟨pieces, buffer, false⟩ (logItemsAfter buffer pieces) := by
  induction pieces generalizing buffer with
  | nil => exact (gives_unfinished [] h).congr (next_end h)
  | cons p more ih =>
    cases p with
    | failure e => exact .item (next_failure h more e) (gives_unfinished more h)
    | bytes bs =>
      have hlines := gives_lines more false (buffer ++ bs) (ih (firstLine?_cutLines _))
      exact hlines.congr (next_bytes h more bs)

/-- No line that is given has a line end. -/
theorem newline_notMem_items (b : Body) : ∀ line, .ok line ∈ b.items → '\n' ∉ line.toList := by
  intro line hline
  have hbytes : ∀ bs : Bytes, bs ∈ b.lines ∨ bs ∈ b.restLine → lineEnd ∉ bs := by
    obtain ⟨hlines, hrest⟩ := lineEnd_notMem_cutLines b.bytes
    rw [← b.lines_eq] at hlines
    rw [← b.rest_eq] at hrest
    intro bs hbs
    rw [Body.restLine] at hbs
    split at hbs
    · exact hlines bs (by simpa using hbs)
    · rcases hbs with hbs | hbs
      · exact hlines bs hbs
      · rwa [List.mem_singleton.mp hbs]
  obtain ⟨bs, hbs, rfl⟩ : ∃ bs : Bytes, (bs ∈ b.lines ∨ bs ∈ b.restLine) ∧
      Utf8.decodeLossy bs = line := by
    simpa [Body.items, LogItem.ofLine, or_and_right, exists_or] using hline
  exact Utf8.notMem_decodeLossy (by decide) (by decide) (hbytes bs hbs)

/-- **A reader gives the lines of a body, however it comes in pieces:** what stands before each line
end, then the failure if the body fails, then the rest if it is not empty, each read as text as a
whole; and then it ends. -/
theorem gives_iff (b : Body) :
    (∀ items, Gives { pieces := b.pieces } items ↔ items = b.items) ∧
      logItems b.pieces = b.items ∧ ∀ line, .ok line ∈ b.items → '\n' ∉ line.toList := by
  have hgives : Gives { pieces := b.pieces } b.items := by
    rw [← logItems_pieces]
    exact gives_logItemsAfter rfl b.pieces
  refine ⟨fun items => ⟨fun h => h.unique hgives, fun h => h ▸ hgives⟩, logItems_pieces b, ?_⟩
  exact newline_notMem_items b

/-- A body that fails in the middle of a line, cut within a character: the character is whole, the
empty line is a line, and the rest comes behind the failure. -/
theorem gives_iff_cutCharacter :
    let b : Body :=
      { chunks := [[0x61, 0xC3], [], [0xA9, 0x0A, 0x0A, 0x62]], failure := some (.config "gone") }
    Gives { pieces := b.pieces } [.ok "aé", .ok "", .error (.config "gone"), .ok "b"] ∧
      .ok "aé" ∈ b.items ∧ '\n' ∉ "aé".toList := by
  intro b
  obtain ⟨hgives, -, hplain⟩ := gives_iff b
  have hlines : b.lines = [Utf8.encode "aé", Utf8.encode ""] := by decide
  have hrest : b.restLine = [Utf8.encode "b"] := by decide
  have hitems : [.ok "aé", .ok "", .error (.config "gone"), .ok "b"] = b.items := by
    simp [Body.items, hlines, hrest, LogItem.ofLine, Utf8.decodeLossy_encode, b]
  have hmem : .ok "aé" ∈ b.items := hitems ▸ List.mem_cons_self
  exact ⟨(hgives _).mpr hitems, hmem, hplain _ hmem⟩

end LogReader

/-! ### Followers -/

namespace FollowerReport

def line? : FollowerReport → Option String
  | event line => some line
  | error _ => none

def error? : FollowerReport → Option String
  | event _ => none
  | error text => some text

end FollowerReport

namespace Body

variable (b : Body)

/-- All that a body brought, as text: its lines, and the rest. -/
def texts : List String := (b.lines ++ b.restLine).map Utf8.decodeLossy

/-- What a follower is to show of a body: the lines, and then the rest or the failure. -/
def shown : List FollowerReport :=
  (b.lines.map Utf8.decodeLossy).map .event ++ match b.failure with
    | none => (b.restLine.map Utf8.decodeLossy).map .event
    | some e => [.error e.message]

theorem lines_events (texts : List String) :
    (texts.map FollowerReport.event).filterMap FollowerReport.line? = texts ∧
      (texts.map FollowerReport.event).filterMap FollowerReport.error? = [] := by
  rw [List.filterMap_map, List.filterMap_map]
  exact ⟨List.filterMap_some, List.filterMap_none texts⟩

/-- The rest alone is missing in what is shown, and only when the body fails. -/
theorem shown_eq_texts_iff :
    b.shown.filterMap FollowerReport.line? = b.texts ↔ b.failure = none ∨ b.rest = [] := by
  rw [shown, texts, List.filterMap_append, (lines_events _).1, List.map_append,
    List.append_cancel_left_eq]
  cases b.failure with
  | none => simp only [(lines_events _).1, true_or]
  | some e =>
    have herror : [FollowerReport.error e.message].filterMap FollowerReport.line? = [] := rfl
    rw [herror]
    by_cases hrest : b.rest = [] <;> simp [restLine, hrest]

theorem errors_shown : b.shown.filterMap FollowerReport.error?
    = b.failure.toList.map ClusterError.message := by
  rw [shown, List.filterMap_append, (lines_events _).2, List.nil_append]
  cases b.failure with
  | none => exact (lines_events _).2
  | some e => rfl

end Body

namespace FollowerState

/-- While it reads, a follower shows every line. -/
theorem run_reading_lines (lines : List String) (es : List LogEvent) :
    reading.run (lines.map .line ++ es)
      = ((reading.run es).1, lines.map .event ++ (reading.run es).2) := by
  induction lines with
  | nil => rfl
  | cons line lines ih =>
    rw [List.map_cons, List.cons_append, run]
    dsimp only [step]
    rw [ih]
    rfl

/-- What comes after its end is nothing to a follower. -/
theorem run_ended (es : List LogEvent) : ended.run es = (ended, []) := by
  induction es with
  | nil => rfl
  | cons e es ih =>
    rw [run]
    dsimp only [step]
    rw [ih]
    rfl

/-- What a follower meets of a body: the lines, and then the rest and the end or a failure. -/
theorem events_items (b : Body) :
    b.items.map LogItem.event = (b.lines.map Utf8.decodeLossy).map .line
      ++ (b.failure.toList.map .failed ++ (b.restLine.map Utf8.decodeLossy).map .line) := by
  simp [Body.items, LogItem.ofLine, LogItem.event, Function.comp_def]

/-- **What a follower shows of a log.**  It shows every line that has its end, in order, and then it
reports the failure of the body, if it fails, or shows the rest behind the last line end, if there
is one.  So it reports as many failures as the body has, and it shows all that the body brought just
when the body does not fail, or not within a line. -/
theorem run_logEvents (b : Body) :
    opening.run (logEvents b.pieces) = (ended, b.shown) ∧
      b.shown.filterMap FollowerReport.error? = b.failure.toList.map ClusterError.message ∧
      (b.shown.filterMap FollowerReport.line? = b.texts ↔ b.failure = none ∨ b.rest = []) := by
  refine ⟨?_, b.errors_shown, b.shown_eq_texts_iff⟩
  have hevents : logEvents b.pieces = .opened :: ((b.lines.map Utf8.decodeLossy).map .line
      ++ (b.failure.toList.map .failed ++ ((b.restLine.map Utf8.decodeLossy).map .line
        ++ [.finished]))) := by
    rw [logEvents, logItems_pieces, events_items, List.cons_append, List.append_assoc,
      List.append_assoc]
  have hopened : ∀ es, opening.run (.opened :: es) = reading.run es := fun _ => rfl
  rw [hevents, hopened, run_reading_lines, Body.shown]
  cases b.failure with
  | none =>
    have hfinished : reading.run [.finished] = (ended, []) := rfl
    simp only [Option.toList_none, List.map_nil, List.nil_append, run_reading_lines, hfinished,
      List.append_nil]
  | some e =>
    -- the follower is at its end before the rest comes
    have hfailed : ∀ es, reading.run (.failed e :: es) = (ended, [.error e.message]) := by
      intro es
      rw [run]
      dsimp only [step]
      rw [run_ended]
      rfl
    simp only [Option.toList_some, List.map_singleton, List.singleton_append, hfailed]

end FollowerState

end Rollout.Kubernetes
