/-
Programs that ask something of their surroundings.

A program is either done, or it takes an action and goes on with the answer.  What an action is
answered is up to an interpreter, so a statement about all surroundings quantifies over answers.

* `Program.run` interprets the actions in a state, `Program.perform` by effects;
* `Program.Path` says which actions a program may take and what it may return, whatever the
  answers are.
-/

namespace Rollout.Host

/-- A program over actions `A`, each with its type of answers, that returns an `α`. -/
inductive Program (A : Type) (Answer : A → Type) (α : Type) where
  | done (a : α)
  | act (x : A) (next : Answer x → Program A Answer α)

namespace Program

variable {A : Type} {Answer : A → Type} {α β σ : Type}

/-- One action as a program. -/
def take (x : A) : Program A Answer (Answer x) :=
  act x done

protected def bind : Program A Answer α → (α → Program A Answer β) → Program A Answer β
  | done a, f => f a
  | act x next, f => act x fun r => (next r).bind f

instance : Monad (Program A Answer) where
  pure := done
  bind := Program.bind

@[simp] theorem pure_eq (a : α) : (pure a : Program A Answer α) = done a := rfl

@[simp] theorem done_bind (a : α) (f : α → Program A Answer β) : done a >>= f = f a := rfl

@[simp] theorem act_bind (x : A) (next : Answer x → Program A Answer α)
    (f : α → Program A Answer β) : act x next >>= f = act x fun r => next r >>= f := rfl

theorem bind_assoc (p : Program A Answer α) (f : α → Program A Answer β) {γ : Type}
    (g : β → Program A Answer γ) : p >>= f >>= g = p >>= fun a => f a >>= g := by
  induction p with
  | done a => rfl
  | act x next ih => simp only [act_bind, ih]

/-- Runs a program; each action is answered from the state, which it may change. -/
def run (answer : (x : A) → σ → Answer x × σ) : Program A Answer α → σ → α × σ
  | done a, s => (a, s)
  | act x next, s => (next (answer x s).1).run answer (answer x s).2

/-- Runs a program; each action is answered by an effect. -/
def perform {m : Type → Type} [Monad m] (answer : (x : A) → m (Answer x)) :
    Program A Answer α → m α
  | done a => pure a
  | act x next => do (next (← answer x)).perform answer

/-- One action with its answer. -/
abbrev Event (A : Type) (Answer : A → Type) := (x : A) × Answer x

/-- The program can take the actions of a trace, given those answers, and then return a value. -/
inductive Path : Program A Answer α → List (Event A Answer) → α → Prop
  | done (a : α) : Path (done a) [] a
  | act (x : A) (r : Answer x) {next : Answer x → Program A Answer α}
      {trace : List (Event A Answer)} {a : α} (rest : Path (next r) trace a) :
      Path (act x next) (⟨x, r⟩ :: trace) a

end Program

end Rollout.Host
