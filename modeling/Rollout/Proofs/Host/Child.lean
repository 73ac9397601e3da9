/-
Paths of the entries of a directory.

A name that is joined to the path of a directory need not stay there: slashes in it lead on, and one
at its front leads away.  Steps that are empty or a single dot lead nowhere, so they are left out
here.

* `Path.IsChild` says that a path is that of a directory and one name more;
* `isChild_join_iff`: what a name and its ending, joined to a directory, must be like for this;
* `exists_name_of_isChild`: in a tree of files, such a path leads to an entry of the directory.
-/
import Rollout.Proofs.Host.FileTree

namespace Rollout.Host

namespace Path

/-- The pieces of a path that lead anywhere. -/
def leading (pieces : List String) : List String :=
  pieces.filter fun t => !t.isEmpty && t != "."

/-- The steps of a path that lead anywhere. -/
def moves (p : String) : List String := leading (p.splitOn "/")

/-- A path is that of a directory and one name more. -/
def IsChild (dir path : String) : Prop :=
  isAbsolute path = isAbsolute dir ∧ ∃ name, name ≠ ".." ∧ moves path = moves dir ++ [name]

/-- What a name leads through before its last slash. -/
def lead (name : String) : List String := leading (name.splitOn "/").dropLast

/-- A name leads into a directory from there: it leads nowhere else before its last slash, or it is
absolute and leads through the directory itself. -/
def StaysIn (dir name : String) : Prop :=
  if isAbsolute name then isAbsolute dir = true ∧ lead name = moves dir else lead name = []

/-! ### Absolute paths -/

theorem isAbsolute_iff (p : String) : isAbsolute p = true ↔ ∃ rest, p.toList = '/' :: rest := by
  rw [isAbsolute, String.startsWith_string_iff]
  exact exists_congr fun rest => eq_comm

theorem isAbsolute_eq_false {p : String} (h : p.toList.head? ≠ some '/') :
    isAbsolute p = false := by
  rw [Bool.eq_false_iff, Ne, isAbsolute_iff]
  rintro ⟨rest, hrest⟩
  exact h (congrArg List.head? hrest)

theorem isAbsolute_append {p : String} (hp : p ≠ "") (q : String) :
    isAbsolute (p ++ q) = isAbsolute p := by
  obtain ⟨x, chars, hchars⟩ := List.exists_cons_of_ne_nil (mt String.toList_eq_nil_iff.mp hp)
  rw [Bool.eq_iff_iff, isAbsolute_iff, isAbsolute_iff, String.toList_append, hchars]
  simp

/-- An ending without a slash does not make a name absolute. -/
theorem isAbsolute_append_ending (name : String) {ending : String} (h : '/' ∉ ending.toList) :
    isAbsolute (name ++ ending) = isAbsolute name := by
  by_cases hname : name = ""
  · have hending : isAbsolute ending = false :=
      isAbsolute_eq_false fun hhead => h (List.mem_of_head? hhead)
    rw [hname, String.empty_append, hending]
    rfl
  · exact isAbsolute_append hname ending

theorem isAbsolute_join (dir : String) {name : String} (h : isAbsolute name = false) :
    isAbsolute (join dir name) = isAbsolute dir := by
  rw [join, h, if_neg Bool.false_ne_true]
  by_cases hdir : dir = ""
  · subst hdir
    exact h
  · split
    · exact isAbsolute_append hdir name
    · rw [String.append_assoc, isAbsolute_append hdir]

/-- A relative name is put after the directory and a slash. -/
theorem join_of_not_suffix {dir name : String} (h : isAbsolute name = false) (hdir : dir ≠ "")
    (hend : ¬ ['/'] <:+ dir.toList) : join dir name = dir ++ "/" ++ name := by
  rw [join, h, if_neg Bool.false_ne_true, if_neg]
  simp [hdir, Text.endsWith_slash_iff, hend]

/-! ### Steps -/

theorem leading_append (pieces more : List String) :
    leading (pieces ++ more) = leading pieces ++ leading more :=
  List.filter_append ..

theorem moves_empty : moves "" = [] := by
  rw [moves, Text.splitOn_slash]
  rfl

theorem moves_slash (p q : String) : moves (p ++ "/" ++ q) = moves p ++ moves q := by
  rw [moves, Text.splitOn_slash_append, leading_append, moves, moves]

theorem moves_join (dir : String) {name : String} (h : isAbsolute name = false) :
    moves (join dir name) = moves dir ++ moves name := by
  rw [join, h, if_neg Bool.false_ne_true]
  split
  · next hdir =>
    rcases Bool.or_eq_true_iff.mp hdir with hempty | hend
    · rw [String.isEmpty_iff.mp hempty, moves_empty, String.empty_append, List.nil_append]
    · -- the slash is there already
      obtain ⟨front, hfront⟩ := (Text.endsWith_slash_iff dir).mp hend
      have hdir : dir = .ofList front ++ "/" := by
        rw [← String.toList_inj, ← hfront]
        simp
      have hslash := moves_slash (.ofList front) ""
      rw [String.append_empty, moves_empty, List.append_nil] at hslash
      rw [hdir, moves_slash, hslash]
  · exact moves_slash dir name

theorem append_ne {ending s : String} (h : s.length < ending.length) (last : String) :
    last ++ ending ≠ s := by
  rintro rfl
  rw [String.length_append] at h
  omega

/-- The last step of a name is the rest of the name and its ending. -/
theorem moves_ending (name : String) : ∃ last, ∀ ending : String, '/' ∉ ending.toList →
    2 < ending.length → moves (name ++ ending) = lead name ++ [last ++ ending] := by
  obtain ⟨pieces, last, h⟩ := Text.exists_splitOn_slash_append name
  have hlead : lead name = leading pieces := by
    have hname := h "" (by simp)
    rw [String.append_empty] at hname
    rw [lead, hname, List.dropLast_concat]
  refine ⟨last, fun ending hslash hlength => ?_⟩
  have hempty : last ++ ending ≠ "" := append_ne (Nat.lt_trans (by decide) hlength) last
  have hdot : last ++ ending ≠ "." := append_ne (Nat.lt_trans (by decide) hlength) last
  have hstep : leading [last ++ ending] = [last ++ ending] := by
    rw [leading, List.filter_cons_of_pos (by simp [hempty, hdot]), List.filter_nil]
  rw [moves, h ending hslash, leading_append, hlead, hstep]

/-- **A name with an ending stays in a directory just when what comes before its last slash
does.** -/
theorem isChild_join_iff {dir name ending : String} (hslash : '/' ∉ ending.toList)
    (hlength : 2 < ending.length) : IsChild dir (join dir (name ++ ending)) ↔ StaysIn dir name := by
  obtain ⟨last, hlast⟩ := moves_ending name
  have hmoves := hlast ending hslash hlength
  have habsolute := isAbsolute_append_ending name hslash
  have hdots : last ++ ending ≠ ".." := append_ne (s := "..") hlength last
  rw [IsChild, StaysIn]
  cases h : isAbsolute name with
  | true =>
    -- the name stands for itself, whatever the directory is
    rw [h] at habsolute
    rw [join, habsolute, if_pos rfl, if_pos rfl, habsolute, hmoves, eq_comm]
    refine and_congr_right fun _ => ?_
    constructor
    · rintro ⟨_, -, heq⟩
      exact (List.append_inj' heq rfl).1
    · exact fun hlead => ⟨_, hdots, by rw [hlead]⟩
  | false =>
    -- the name goes on from the directory
    rw [h] at habsolute
    rw [isAbsolute_join dir habsolute, moves_join dir habsolute, hmoves, if_neg Bool.false_ne_true]
    constructor
    · rintro ⟨-, _, -, heq⟩
      rw [← List.append_assoc] at heq
      exact List.append_right_eq_self.mp (List.append_inj' heq rfl).1
    · intro hlead
      exact ⟨rfl, _, hdots, by rw [hlead, List.nil_append]⟩

theorem staysIn_of_slash_notMem (dir : String) {name : String} (h : '/' ∉ name.toList) :
    StaysIn dir name := by
  have hrelative : isAbsolute name = false := by
    have happend := isAbsolute_append_ending "" h
    rwa [String.empty_append] at happend
  rw [StaysIn, hrelative, if_neg Bool.false_ne_true, lead, Text.splitOn_slash,
    List.splitOn_eq_singleton h]
  rfl

end Path

namespace FileTree

variable {t : FileTree} {dir path : String} {d q : Place}

theorem moves_eq_filter_steps (path : String) :
    Path.moves path = (steps path).filter (· != ".") := by
  rw [filter_steps, List.filter_filter, Path.moves, Path.leading]
  exact List.filter_congr fun c _ => Bool.and_comm ..

theorem walk_moves {p : Place} (h : t.walk p (steps path) = .ok q) :
    t.walk p (Path.moves path) = .ok q := by
  rw [moves_eq_filter_steps]
  exact walk_filter_dot h

theorem start?_eq_some_iff {p : Place} : t.start? path = some p ↔ path ≠ "" ∧
    (if Path.isAbsolute path then t.workingDir.map fun _ => [] else some (t.workingDir.getD []))
      = some p := by
  rw [start?]
  by_cases h : path = "" <;> simp [h]

theorem step_eq_ok {p : Place} {name : String} (hdot : name ≠ ".") (hdots : name ≠ "..")
    (h : t.step p name = .ok q) : q = p ++ [name] := by
  unfold step at h
  split at h
  · exact absurd h nofun
  · exact absurd h nofun
  · rw [if_neg (by simpa using hdot), if_neg (by simpa using hdots)] at h
    split at h
    · exact absurd h nofun
    · exact (Except.ok.inj h).symm

/-- A path that goes one name further leads to an entry of the place before. -/
theorem exists_place_of_moves {way : List String} {name : String} (hdots : name ≠ "..")
    (hmoves : Path.moves path = way ++ [name]) (hpath : t.resolve path = .ok q) :
    ∃ p d, t.start? path = some p ∧ t.walk p way = .ok d ∧ q = d ++ [name] := by
  obtain ⟨p, hstart, hwalk⟩ := resolve_eq_ok_iff.mp hpath
  have hlast := walk_moves hwalk
  rw [hmoves, walk_append] at hlast
  obtain ⟨d, hd, hlast⟩ := bind_eq_ok_iff.mp hlast
  obtain ⟨q', hstep, hend⟩ := bind_eq_ok_iff.mp hlast
  have hdot : name ≠ "." := by
    have hmem : name ∈ Path.moves path := hmoves ▸ List.mem_append_right _ List.mem_cons_self
    simpa using (Bool.and_eq_true_iff.mp (List.mem_filter.mp hmem).2).2
  obtain rfl := Except.ok.inj hend
  exact ⟨p, d, hstart, hd, step_eq_ok hdot hdots hstep⟩

/-- Paths that are both absolute or both relative start at the same place. -/
theorem start?_unique {path' : String} {p p' : Place}
    (h : Path.isAbsolute path = Path.isAbsolute path') (hp : t.start? path = some p)
    (hp' : t.start? path' = some p') : p = p' := by
  rw [← Option.some_inj, ← (start?_eq_some_iff.mp hp).2, ← (start?_eq_some_iff.mp hp').2, h]

/-- The path of an entry of a directory leads to an entry of it. -/
theorem exists_name_of_isChild (h : Path.IsChild dir path) (hdir : t.resolve dir = .ok d)
    (hpath : t.resolve path = .ok q) : ∃ name, q = d ++ [name] := by
  obtain ⟨habsolute, name, hdots, hmoves⟩ := h
  obtain ⟨p, hstart, hwalk⟩ := resolve_eq_ok_iff.mp hdir
  obtain ⟨p', d', hstart', hd', rfl⟩ := exists_place_of_moves hdots hmoves hpath
  -- both paths take the same steps to the directory
  obtain rfl := start?_unique habsolute hstart' hstart
  obtain rfl := Except.ok.inj ((walk_moves hwalk).symm.trans hd')
  exact ⟨name, rfl⟩

end FileTree

end Rollout.Host
