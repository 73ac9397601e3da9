/-
When computations that may fail succeed: one after another, and for every item of a list; and how
they fail then.
-/
import Mathlib.Data.List.Forall2

namespace Rollout

variable {ε α β : Type}

theorem bind_eq_ok_iff {x : Except ε α} {f : α → Except ε β} {b : β} :
    (x >>= f) = .ok b ↔ ∃ a, x = .ok a ∧ f a = .ok b := by
  cases x with
  | error e => exact ⟨nofun, fun ⟨_, h, _⟩ => absurd h nofun⟩
  | ok a => exact ⟨fun h => ⟨a, rfl, h⟩, fun ⟨_, h, hf⟩ => Except.ok.inj h ▸ hf⟩

/-- A check before something else. -/
theorem check_bind_eq_ok_iff {x : Except ε Unit} {y : Except ε β} {b : β} :
    (x >>= fun _ => y) = .ok b ↔ x = .ok () ∧ y = .ok b := by
  rw [bind_eq_ok_iff]
  exact ⟨fun ⟨_, hx, hy⟩ => ⟨hx, hy⟩, fun ⟨hx, hy⟩ => ⟨(), hx, hy⟩⟩

theorem bind_succeeds_iff {x : Except ε α} {f : α → Except ε β} :
    (∃ b, (x >>= f) = .ok b) ↔ ∃ a, x = .ok a ∧ ∃ b, f a = .ok b := by
  simp only [bind_eq_ok_iff]
  exact ⟨fun ⟨b, a, ha, hb⟩ => ⟨a, ha, b, hb⟩, fun ⟨a, ha, b, hb⟩ => ⟨b, a, ha, hb⟩⟩

theorem bind_ok_succeeds_iff {x : Except ε α} {f : α → β} :
    (∃ b, (x >>= fun a => .ok (f a)) = .ok b) ↔ ∃ a, x = .ok a := by
  simp only [bind_succeeds_iff, Except.ok.injEq, exists_eq', and_true]

theorem bind_eq_error_iff {x : Except ε α} {f : α → Except ε β} {e : ε} :
    (x >>= f) = .error e ↔ x = .error e ∨ ∃ a, x = .ok a ∧ f a = .error e := by
  cases x with
  | error e' =>
    -- the error is the same one, of another type
    constructor
    · exact fun h => .inl (congrArg Except.error (Except.error.inj h))
    · rintro (h | ⟨_, ha, -⟩)
      · exact congrArg Except.error (Except.error.inj h)
      · cases ha
  | ok a =>
    constructor
    · exact fun h => .inr ⟨a, rfl, h⟩
    · rintro (h | ⟨_, ha, hf⟩)
      · cases h
      · cases ha
        exact hf

theorem bind_ok_eq_error_iff {x : Except ε α} {f : α → β} {e : ε} :
    (x >>= fun a => .ok (f a)) = .error e ↔ x = .error e := by
  rw [bind_eq_error_iff]
  exact or_iff_left fun ⟨_, _, h⟩ => nomatch h

/-- What comes after a computation only matters for the values it gives. -/
theorem bind_congr_of_ok {x : Except ε α} {f g : α → Except ε β}
    (h : ∀ a, x = .ok a → f a = g a) : x >>= f = x >>= g := by
  cases x with
  | error e => rfl
  | ok a => exact h a rfl

theorem toOption_eq_some_iff {x : Except ε α} {a : α} : x.toOption = some a ↔ x = .ok a := by
  cases x <;> simp [Except.toOption]

theorem succeeds_iff_ne_error {x : Except ε α} : (∃ a, x = .ok a) ↔ ∀ e, x ≠ .error e := by
  cases x with
  | error e => exact ⟨fun ⟨_, h⟩ => absurd h nofun, fun h => absurd rfl (h e)⟩
  | ok a => exact ⟨fun _ _ => nofun, fun _ => ⟨a, rfl⟩⟩

theorem mapError_eq_ok_iff {x : Except ε α} {f : ε → β} {a : α} :
    x.mapError f = .ok a ↔ x = .ok a := by
  cases x <;> simp [Except.mapError]

theorem map_some_eq_ok_iff {x : Except ε α} {a : α} : some <$> x = .ok (some a) ↔ x = .ok a := by
  cases x <;> simp [Functor.map, Except.map]

theorem mapM_eq_ok_iff {f : α → Except ε β} {l : List α} {bs : List β} :
    l.mapM f = .ok bs ↔ List.Forall₂ (fun a b => f a = .ok b) l bs := by
  induction l generalizing bs with
  | nil =>
    rw [List.mapM_nil, List.forall₂_nil_left_iff]
    exact ⟨fun h => (Except.ok.inj h).symm, fun h => h ▸ rfl⟩
  | cons a l ih =>
    rw [List.mapM_cons, bind_eq_ok_iff, List.forall₂_cons_left_iff]
    constructor
    · rintro ⟨b, ha, h⟩
      obtain ⟨rest, hl, h⟩ := bind_eq_ok_iff.mp h
      exact ⟨b, rest, ha, ih.mp hl, (Except.ok.inj h).symm⟩
    · rintro ⟨b, rest, ha, hl, rfl⟩
      exact ⟨b, ha, bind_eq_ok_iff.mpr ⟨rest, ih.mpr hl, rfl⟩⟩

theorem mapM_succeeds_iff {f : α → Except ε β} {l : List α} :
    (∃ bs, l.mapM f = .ok bs) ↔ ∀ a ∈ l, ∃ b, f a = .ok b := by
  induction l with
  | nil => exact ⟨fun _ a ha => absurd ha List.not_mem_nil, fun _ => ⟨[], rfl⟩⟩
  | cons a l ih =>
    simp only [mapM_eq_ok_iff, List.forall₂_cons_left_iff] at ih ⊢
    rw [List.forall_mem_cons, ← ih]
    constructor
    · rintro ⟨_, b, bs, hb, hbs, -⟩
      exact ⟨⟨b, hb⟩, bs, hbs⟩
    · rintro ⟨⟨b, hb⟩, bs, hbs⟩
      exact ⟨b :: bs, b, bs, hb, hbs, rfl⟩

theorem forM_eq_ok_iff {f : α → Except ε Unit} {l : List α} :
    l.forM f = .ok () ↔ ∀ a ∈ l, f a = .ok () := by
  induction l with
  | nil => exact ⟨fun _ a ha => absurd ha List.not_mem_nil, fun _ => rfl⟩
  | cons a l ih =>
    have hstep : (a :: l).forM f = f a >>= fun _ => l.forM f := rfl
    rw [hstep, bind_eq_ok_iff, List.forall_mem_cons, ← ih]
    exact ⟨fun ⟨_, ha, hl⟩ => ⟨ha, hl⟩, fun ⟨ha, hl⟩ => ⟨(), ha, hl⟩⟩

/-- Checks fail as the first one that fails. -/
theorem forM_eq_error_iff {f : α → Except ε Unit} {l : List α} {e : ε} :
    l.forM f = .error e ↔ ∃ before a after, l = before ++ a :: after ∧
      (∀ b ∈ before, f b = .ok ()) ∧ f a = .error e := by
  induction l with
  | nil => exact ⟨nofun, fun ⟨before, a, after, hl, _⟩ => absurd hl.symm (by simp)⟩
  | cons a l ih =>
    have hstep : (a :: l).forM f = f a >>= fun _ => l.forM f := rfl
    rw [hstep]
    cases ha : f a with
    | error e' =>
      constructor
      · exact fun h => ⟨[], a, l, rfl, nofun, ha.trans h⟩
      · rintro ⟨_ | ⟨b, before⟩, c, after, hl, hbefore, hc⟩
        · obtain ⟨rfl, -⟩ := List.cons_eq_cons.mp hl
          exact ha.symm.trans hc
        · -- a check before the failing one has succeeded, but the first has not
          obtain ⟨rfl, -⟩ := List.cons_eq_cons.mp hl
          exact absurd (ha.symm.trans (hbefore a List.mem_cons_self)) nofun
    | ok u =>
      refine Iff.trans ih ?_
      constructor
      · rintro ⟨before, c, after, rfl, hbefore, hc⟩
        exact ⟨a :: before, c, after, rfl, List.forall_mem_cons.mpr ⟨ha, hbefore⟩, hc⟩
      · rintro ⟨_ | ⟨b, before⟩, c, after, hl, hbefore, hc⟩
        · obtain ⟨rfl, -⟩ := List.cons_eq_cons.mp hl
          exact absurd (ha.symm.trans hc) nofun
        · obtain ⟨rfl, rfl⟩ := List.cons_eq_cons.mp hl
          exact ⟨before, c, after, rfl, (List.forall_mem_cons.mp hbefore).2, hc⟩

/-- Computations for the items of a list fail as the first one that fails. -/
theorem mapM_eq_error_iff {f : α → Except ε β} {l : List α} {e : ε} :
    l.mapM f = .error e ↔ ∃ before a after, l = before ++ a :: after ∧
      (∀ b ∈ before, ∃ c, f b = .ok c) ∧ f a = .error e := by
  -- what they give does not matter, so that they are checks
  have hchecks : l.mapM f = .error e ↔ l.forM (fun a => f a >>= fun _ => .ok ()) = .error e := by
    induction l with
    | nil => exact ⟨nofun, nofun⟩
    | cons a l ih =>
      rw [List.mapM_cons]
      show _ ↔ ((f a >>= fun _ => .ok ()) >>= fun _ => l.forM fun a => f a >>= fun _ => .ok ())
        = .error e
      cases f a with
      | error e' =>
        constructor <;> exact fun h => congrArg Except.error (Except.error.inj h)
      | ok b => exact bind_ok_eq_error_iff.trans ih
  have hpasses (b : α) : (f b >>= fun _ => .ok ()) = .ok () ↔ ∃ c, f b = .ok c := by
    rw [bind_eq_ok_iff]
    simp only [and_true]
  rw [hchecks, forM_eq_error_iff]
  simp only [hpasses, bind_ok_eq_error_iff]

end Rollout
