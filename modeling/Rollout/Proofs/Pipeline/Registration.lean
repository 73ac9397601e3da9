/-
Registering a specification again changes nothing.

`Store.carry` carries a program out against a registry, as long as the program calls nothing else,
and keeps the calls.  `carry_register` says what registering comes to, whatever the registry holds;
`register_idempotent` that a second time right after it is a look and no more.
-/
import Rollout.Pipeline.Basic
import Rollout.Proofs.Registry.Client
import Rollout.Proofs.Spec.Validation

namespace Rollout

open Function (update)
open Host (Program)
open Spec (Application)

/-! ### Programs that call a registry -/

/-- Carries a program out against a registry: what it returns, the calls it makes, and what the
registry holds then.  Any other action has no answer here. -/
def Registry.Store.carry {α : Type} (s : Store) : Run α → Option (α × List Call × Store)
  | .done a => some (a, [], s)
  | .act (.registry base c) next =>
    ((s.serve base c).2.carry (next (s.serve base c).1)).map fun (a, calls, s') =>
      (a, c :: calls, s')
  | .act _ _ => none

namespace Pipeline

open Registry (Addressable AtRoot Call Fits Store)

theorem carry_bind {α β : Type} (s : Store) (p : Run α) (f : α → Run β) :
    s.carry (p >>= f) = (s.carry p).bind fun (a, calls, s') =>
      (s'.carry (f a)).map fun (b, more, s'') => (b, calls ++ more, s'') := by
  induction p generalizing s with
  | done a =>
    rw [Program.done_bind]
    simp [Store.carry]
  | act x next ih =>
    rw [Program.act_bind]
    cases x with
    | registry base c =>
      simp only [Store.carry, ih]
      cases (s.serve base c).2.carry (next (s.serve base c).1) <;>
        simp [Function.comp_def]
    | _ => rfl

/-- After a success, what follows goes on with what the registry holds then. -/
theorem carry_bindExcept {α β : Type} {s s' : Store} {p : Step α} {a : α} {calls : List Call}
    (h : s.carry p.run = some (.ok a, calls, s')) (f : α → Step β) :
    s.carry (p >>= f : Step β).run
      = (s'.carry (f a).run).map fun (b, more, s'') => (b, calls ++ more, s'') := by
  rw [ExceptT.run_bind, carry_bind, h]
  rfl

theorem carry_ask (s : Store) (base : String) (c : Call) :
    s.carry (ask base c).run
      = some ((s.serve base c).1.mapError .registry, [c], (s.serve base c).2) :=
  rfl

/-! ### Names -/

/-- A letter or a digit of ASCII, a hyphen or an underscore. -/
def isNameChar (c : Char) : Bool :=
  ('a' ≤ c && c ≤ 'z') || ('A' ≤ c && c ≤ 'Z') || ('0' ≤ c && c ≤ '9') || c == '-' || c == '_'

theorem not_mem_of_isNameChar {c : Char} (h : isNameChar c) {cs : List Char}
    (hcs : cs.all fun d => !isNameChar d) : c ∉ cs := by
  intro hc
  have := List.all_eq_true.mp hcs c hc
  rw [h] at this
  nomatch this

theorem space_lt_of_isNameChar {c : Char} (h : isNameChar c) : ' ' < c := by
  simp only [isNameChar, Bool.or_eq_true, Bool.and_eq_true, decide_eq_true_eq, beq_iff_eq] at h
  rcases h with ((((⟨h, -⟩ | ⟨h, -⟩) | ⟨h, -⟩) | rfl) | rfl)
  · exact lt_of_lt_of_le (by decide) h
  · exact lt_of_lt_of_le (by decide) h
  · exact lt_of_lt_of_le (by decide) h
  · decide
  · decide

/-- A name of such characters comes through a URL. -/
theorem addressable_of_nameChars {name : String} (hne : name ≠ "")
    (h : ∀ c ∈ name.toList, isNameChar c) : Addressable name := by
  obtain ⟨c, cs, hcs⟩ : ∃ c cs, name.toList = c :: cs :=
    List.exists_cons_of_ne_nil (by simpa using hne)
  have hpercent : ∀ c ∈ name.toList, c ≠ '%' := by
    rintro _ hc rfl
    exact absurd (h _ hc) (by decide)
  have hdots : Http.Url.dots name.toList = none := by
    have hdot : c ≠ '.' := by
      rintro rfl
      exact absurd (h '.' (hcs ▸ List.mem_cons_self)) (by decide)
    -- a dot segment begins with a dot or with its escape
    have hpercent := hpercent c (hcs ▸ List.mem_cons_self)
    rw [hcs, Http.Url.dots.eq_def]
    split <;> simp_all
  refine ⟨hne, fun c hc => not_mem_of_isNameChar (h c hc) (by decide), ?_, by simp [hdots], ?_⟩
  · intro c hc
    exact space_lt_of_isNameChar (h c (List.mem_of_getLast? hc))
  · generalize name.toList = l at hpercent
    induction l with
    | nil => trivial
    | cons c l ih =>
      refine ⟨?_, ih fun d hd => hpercent d (List.mem_cons_of_mem c hd)⟩
      have := hpercent c List.mem_cons_self
      unfold Http.escape?
      split <;> simp_all

/-! ### Registering -/

/-- What registering comes to: a look, and the storing unless just that is there. -/
theorem carry_register {base : String} (hbase : AtRoot base) {a : Application}
    (hname : Addressable a.name) (hvalid : a.validate = .ok ()) (hfits : Fits a) (s : Store) :
    s.carry (register base a).run
      = if s.get? a.name = some a then some (.ok (), [.get a.name], s)
        else some (.ok (), [.get a.name, .put a], s.insert a) := by
  have hget : s.carry (ask base (.get a.name)).run
      = some (.ok (s.get? a.name), [.get a.name], s) := by
    rw [carry_ask, s.serve_get hbase hname]
    rfl
  have hput : s.carry (ask base (.put a)).run = some (.ok a, [.put a], s.insert a) := by
    rw [carry_ask, s.serve_put hbase hname rfl hvalid hfits]
    rfl
  rw [register, carry_bindExcept hget]
  split
  · rfl
  · rw [carry_bindExcept hput]
    rfl

/-- **Registering twice is registering once.**  A valid specification with a plain name that fits
into a request is registered whatever the registry holds: it then stands under its name, and all
else is as before.  To register it again right after that is a look and no more. -/
theorem register_idempotent {base : String} (hbase : AtRoot base) {a : Application}
    (hname : ∀ c ∈ a.name.toList, isNameChar c) (hvalid : a.validate = .ok ()) (hfits : Fits a)
    (s : Store) :
    ∃ calls s', s.carry (register base a).run = some (.ok (), calls, s')
      ∧ s'.get? = update s.get? a.name (some a)
      ∧ s'.carry (register base a).run = some (.ok (), [.get a.name], s') := by
  have hne : a.name ≠ "" := by
    intro hempty
    have := (Spec.Application.validate_eq_ok_iff a).mp hvalid
    rw [hempty] at this
    exact this.1 (by decide)
  have haddressable := addressable_of_nameChars hne hname
  have hfirst := carry_register hbase haddressable hvalid hfits s
  -- the specification is there already, and the first time is like the second, or it is stored
  by_cases hsame : s.get? a.name = some a
  · rw [if_pos hsame] at hfirst
    exact ⟨_, s, hfirst, by rw [← hsame, Function.update_eq_self], hfirst⟩
  · rw [if_neg hsame] at hfirst
    have hstored : (s.insert a).get? = update s.get? a.name (some a) :=
      funext fun name => by rw [Store.get?_insert, Function.update_apply]
    refine ⟨_, s.insert a, hfirst, hstored, ?_⟩
    rw [carry_register hbase haddressable hvalid hfits, if_pos]
    rw [hstored, Function.update_self]

/-- A registry has another specification of that name, and one of another name. -/
theorem register_idempotent_replaces :
    let s : Store := ⟨[{ guid := 7, name := "shop-1" }, { name := "web" }]⟩
    ∃ calls s', s.carry (register "http://localhost:8080" { name := "shop-1" }).run
        = some (.ok (), calls, s')
      ∧ s'.get? = update s.get? "shop-1" (some { name := "shop-1" })
      ∧ s'.carry (register "http://localhost:8080" { name := "shop-1" }).run
        = some (.ok (), [.get "shop-1"], s') :=
  register_idempotent Registry.atRoot_localhost (List.all_eq_true.mp (by decide)) (by decide)
    (by decide) _

end Pipeline

end Rollout
