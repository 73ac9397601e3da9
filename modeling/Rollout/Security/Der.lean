/-
Tagged elements: a tag, a length and so many bytes, which may be elements again.

`elements?` reads bytes as elements one after another; lengths are written in the shortest way.
-/
import Rollout.Text.Utf8

namespace Rollout.Security

structure Element where
  tag : UInt8
  content : Bytes
  /-- The element as it is written. -/
  written : Bytes
  deriving DecidableEq, Repr, Inhabited

namespace Element

def integerTag : UInt8 := 0x02
def bitStringTag : UInt8 := 0x03
def octetStringTag : UInt8 := 0x04
def sequenceTag : UInt8 := 0x30

/-- The tag of an optional part with a number. -/
def partTag (n : Nat) : UInt8 := UInt8.ofNat (0xA0 + n)

/-- Reads a length, and says how many bytes it took. -/
def length? : Bytes → Option (Nat × Nat)
  | [] => none
  | b :: rest =>
    let count := b.toNat - 0x80
    if b < 0x80 then some (b.toNat, 1)
    else if count = 0 || 4 < count || rest.length < count then none
    else
      let n := (rest.take count).foldl (fun n b => n * 256 + b.toNat) 0
      if n < 0x80 || rest.head? == some 0 then none else some (n, count + 1)

/-- Reads one element; more bytes may follow. -/
def next? : Bytes → Option (Element × Bytes)
  | [] => none
  | tag :: rest =>
    match length? rest with
    | none => none
    | some (n, taken) =>
      let content := rest.drop taken
      if content.length < n || tag.toNat % 32 == 31 then none
      else some (⟨tag, content.take n, tag :: rest.take (taken + n)⟩, content.drop n)

theorem length_lt_of_next? {bs rest : Bytes} {e : Element} (h : next? bs = some (e, rest)) :
    rest.length < bs.length := by
  cases bs with
  | nil => simp [next?] at h
  | cons tag bs =>
    simp only [next?] at h
    split at h
    · exact absurd h (by simp)
    · split at h
      · exact absurd h (by simp)
      · simp only [Option.some.injEq, Prod.mk.injEq] at h
        rw [← h.2]
        simp only [List.length_drop, List.length_cons]
        omega

end Element

/-- Reads bytes as elements one after another. -/
def elements? (bs : Bytes) : Option (List Element) :=
  match _h : Element.next? bs with
  | some (e, rest) => (elements? rest).map (e :: ·)
  | none => if bs.isEmpty then some [] else none
termination_by bs.length
decreasing_by exact Element.length_lt_of_next? _h

/-- The elements of bytes that are one sequence. -/
def sequence? (bs : Bytes) : Option (List Element) :=
  match elements? bs with
  | some [e] => if e.tag == Element.sequenceTag then elements? e.content else none
  | _ => none

end Rollout.Security
