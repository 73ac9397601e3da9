/-
Blank characters and trimming.

A character is blank when it has the Unicode property `White_Space`.  A name or an image counts as
empty when it holds blanks only, and captured command output is shown without the blanks around it.
-/

namespace Rollout.Text

/-- The property `White_Space`: ASCII space and controls, next line, and the Unicode spaces. -/
def isBlank (c : Char) : Bool :=
  let n := c.toNat
  (9 ≤ n && n ≤ 13) || n == 0x20 || n == 0x85 || n == 0xA0 || n == 0x1680 ||
    (0x2000 ≤ n && n ≤ 0x200A) || n == 0x2028 || n == 0x2029 || n == 0x202F || n == 0x205F ||
    n == 0x3000

theorem isBlank_of_isWhitespace {c : Char} (h : c.isWhitespace) : isBlank c := by
  simp only [Char.isWhitespace, Bool.or_eq_true, decide_eq_true_eq] at h
  rcases h with ((rfl | rfl) | rfl) | rfl <;> rfl

/-- Drops the characters satisfying `p` from the end. -/
def dropRightWhile (p : Char → Bool) (cs : List Char) : List Char :=
  (cs.reverse.dropWhile p).reverse

/-- Drops the blanks on both sides. -/
def trimChars (cs : List Char) : List Char :=
  dropRightWhile isBlank (cs.dropWhile isBlank)

/-- A text without the blanks on both sides. -/
def trim (s : String) : String :=
  String.ofList (trimChars s.toList)

/-- A text without the characters satisfying `p` at its end. -/
def trimRight (p : Char → Bool) (s : String) : String :=
  String.ofList (dropRightWhile p s.toList)

/-- A text of blanks only, the empty text included. -/
def isBlankText (s : String) : Bool :=
  s.toList.all isBlank

theorem isBlankText_eq_false_iff (s : String) :
    isBlankText s = false ↔ ∃ x ∈ s.toList, ¬ isBlank x :=
  List.all_eq_false

end Rollout.Text
