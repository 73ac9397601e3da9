/-
The paths of a program, taken apart along its structure.

`Program.Path` says what a program may do whatever it is answered.  A program that is done does
nothing more, a program that takes an action goes on with any answer, and programs in sequence do
one after the other; when the first may fail, the second is only come to after a success.

`Program.Only` says that a program takes actions of one kind alone.  It follows the program, not its
paths, so that it is read off a definition part by part; `Only.of_path` gives what it says of a
path.  `Program.Returns` says so of the values it returns, and `Program.FailsOnly` of the failures
among them.
-/
import Rollout.Action

namespace Rollout.Host.Program

variable {A : Type} {Answer : A → Type} {α β ε : Type} {trace : List (Event A Answer)}

theorem path_done_iff {a b : α} :
    Path (done a : Program A Answer α) trace b ↔ trace = [] ∧ b = a := by
  constructor
  · intro h
    cases h
    exact ⟨rfl, rfl⟩
  · rintro ⟨rfl, rfl⟩
    exact .done b

theorem path_act_iff {x : A} {next : Answer x → Program A Answer α} {a : α} :
    Path (act x next) trace a ↔ ∃ r rest, trace = ⟨x, r⟩ :: rest ∧ Path (next r) rest a := by
  constructor
  · intro h
    cases h with
    | act _ r rest => exact ⟨r, _, rfl, rest⟩
  · rintro ⟨r, rest, rfl, h⟩
    exact .act x r h

theorem path_bind_iff {p : Program A Answer α} {f : α → Program A Answer β} {b : β} :
    Path (p >>= f) trace b ↔
      ∃ first a rest, trace = first ++ rest ∧ Path p first a ∧ Path (f a) rest b := by
  induction p generalizing trace with
  | done a =>
    rw [done_bind]
    constructor
    · exact fun h => ⟨[], a, trace, rfl, .done a, h⟩
    · rintro ⟨first, a', rest, rfl, hp, hf⟩
      obtain ⟨rfl, rfl⟩ := path_done_iff.mp hp
      exact hf
  | act x next ih =>
    rw [act_bind, path_act_iff]
    constructor
    · rintro ⟨r, later, rfl, h⟩
      obtain ⟨first, a, rest, rfl, hp, hf⟩ := (ih r).mp h
      exact ⟨⟨x, r⟩ :: first, a, rest, rfl, .act x r hp, hf⟩
    · rintro ⟨_, a, rest, rfl, hp, hf⟩
      obtain ⟨r, first, rfl, hnext⟩ := path_act_iff.mp hp
      exact ⟨r, first ++ rest, rfl, (ih r).mpr ⟨first, a, rest, rfl, hnext, hf⟩⟩

theorem path_take_iff {x : A} {r : Answer x} :
    Path (take x : Program A Answer (Answer x)) trace r ↔ trace = [⟨x, r⟩] := by
  rw [take, path_act_iff]
  constructor
  · rintro ⟨s, rest, rfl, h⟩
    obtain ⟨rfl, rfl⟩ := path_done_iff.mp h
    rfl
  · rintro rfl
    exact ⟨r, [], rfl, .done r⟩

theorem path_bindDone_iff {p : Program A Answer α} {f : α → β} {b : β} :
    Path (p >>= fun a => done (f a)) trace b ↔ ∃ a, Path p trace a ∧ b = f a := by
  rw [path_bind_iff]
  constructor
  · rintro ⟨first, a, rest, rfl, hp, h⟩
    obtain ⟨rfl, rfl⟩ := path_done_iff.mp h
    rw [List.append_nil]
    exact ⟨a, hp, rfl⟩
  · rintro ⟨a, hp, rfl⟩
    exact ⟨trace, a, [], (List.append_nil _).symm, hp, .done _⟩

/-- What follows a program that may fail is only come to after a success. -/
theorem path_bindExcept_iff {p : ExceptT ε (Program A Answer) α}
    {f : α → ExceptT ε (Program A Answer) β} {r : Except ε β} :
    Path (p >>= f : ExceptT ε (Program A Answer) β).run trace r ↔
      (∃ e, r = .error e ∧ Path p.run trace (.error e)) ∨
        ∃ first a rest, trace = first ++ rest ∧ Path p.run first (.ok a) ∧
          Path (f a).run rest r := by
  rw [ExceptT.run_bind, path_bind_iff]
  constructor
  · rintro ⟨first, result, rest, rfl, hp, hf⟩
    cases result with
    | error e =>
      obtain ⟨rfl, rfl⟩ := path_done_iff.mp hf
      rw [List.append_nil]
      exact .inl ⟨e, rfl, hp⟩
    | ok a => exact .inr ⟨first, a, rest, rfl, hp, hf⟩
  · rintro (⟨e, rfl, hp⟩ | ⟨first, a, rest, rfl, hp, hf⟩)
    · exact ⟨trace, .error e, [], (List.append_nil _).symm, hp, .done _⟩
    · exact ⟨first, .ok a, rest, rfl, hp, hf⟩

/-! ### The actions of a program -/

/-- Whatever it is answered, the program takes only actions with a property. -/
def Only (P : A → Prop) : Program A Answer α → Prop
  | done _ => True
  | act x next => P x ∧ ∀ r, (next r).Only P

namespace Only

variable {P Q : A → Prop} {p : Program A Answer α}

theorem of_path (h : p.Only P) {a : α} (hp : Path p trace a) : ∀ v ∈ trace, P v.1 := by
  induction hp with
  | done => exact fun v hv => absurd hv List.not_mem_nil
  | act x r _ ih =>
    intro v hv
    rcases List.mem_cons.mp hv with rfl | hv
    · exact h.1
    · exact ih (h.2 r) v hv

theorem take {x : A} (h : P x) : (take x : Program A Answer (Answer x)).Only P :=
  ⟨h, fun _ => trivial⟩

theorem imp (h : p.Only P) (hPQ : ∀ x, P x → Q x) : p.Only Q := by
  induction p with
  | done => trivial
  | act x next ih => exact ⟨hPQ x h.1, fun r => ih r (h.2 r)⟩

theorem bind (h : p.Only P) {f : α → Program A Answer β} (hf : ∀ a, (f a).Only P) :
    (p >>= f).Only P := by
  induction p with
  | done a => exact hf a
  | act x next ih => exact ⟨h.1, fun r => ih r (h.2 r)⟩

theorem bindExcept {p : ExceptT ε (Program A Answer) α} (h : p.run.Only P)
    {f : α → ExceptT ε (Program A Answer) β} (hf : ∀ a, (f a).run.Only P) :
    (p >>= f : ExceptT ε (Program A Answer) β).run.Only P := by
  rw [ExceptT.run_bind]
  refine h.bind fun r => ?_
  cases r with
  | error e => trivial
  | ok a => exact hf a

end Only

/-! ### The results of a program -/

/-- Whatever it is answered, the program returns only values with a property. -/
def Returns (P : α → Prop) : Program A Answer α → Prop
  | done a => P a
  | act _ next => ∀ r, (next r).Returns P

namespace Returns

variable {P : α → Prop} {Q : β → Prop} {p : Program A Answer α}

theorem of_path (h : p.Returns P) {a : α} (hp : Path p trace a) : P a := by
  induction hp with
  | done => exact h
  | act x r _ ih => exact ih (h r)

theorem bind (h : p.Returns P) {f : α → Program A Answer β} (hf : ∀ a, P a → (f a).Returns Q) :
    (p >>= f).Returns Q := by
  induction p with
  | done a => exact hf a h
  | act x next ih => exact fun r => ih r (h r)

theorem any (p : Program A Answer α) : p.Returns fun _ => True := by
  induction p with
  | done => trivial
  | act x next ih => exact ih

end Returns

/-- The program fails only in ways with a property. -/
def FailsOnly (P : ε → Prop) (p : ExceptT ε (Program A Answer) α) : Prop :=
  p.run.Returns fun r => ∀ e, r = .error e → P e

namespace FailsOnly

variable {P : ε → Prop}

theorem of_path {p : ExceptT ε (Program A Answer) α} (h : FailsOnly P p) {e : ε}
    (hp : Path p.run trace (.error e)) : P e :=
  Returns.of_path h hp e rfl

theorem pure (a : α) : FailsOnly P (pure a : ExceptT ε (Program A Answer) α) :=
  fun _ he => nomatch he

theorem throw {e : ε} (h : P e) : FailsOnly P (throw e : ExceptT ε (Program A Answer) α) :=
  fun _ he => Except.error.inj he ▸ h

theorem lift (p : Program A Answer α) : FailsOnly P (ExceptT.lift p : ExceptT ε _ α) :=
  (Returns.any p).bind fun _ _ => fun _ he => nomatch he

theorem bind {p : ExceptT ε (Program A Answer) α} (h : FailsOnly P p)
    {f : α → ExceptT ε (Program A Answer) β} (hf : ∀ a, FailsOnly P (f a)) :
    FailsOnly P (p >>= f) := by
  rw [FailsOnly, ExceptT.run_bind]
  refine Returns.bind h fun r hr => ?_
  cases r with
  | error e => exact fun _ he => Except.error.inj he ▸ hr e rfl
  | ok a => exact hf a

end FailsOnly

end Rollout.Host.Program
