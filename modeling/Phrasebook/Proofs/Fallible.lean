import Mathlib.Data.List.Forall2

/-!
# Fallible Computations

What is known of the parts of a computation that succeeded. Compiling is a chain
of steps each of which may fail, and every statement about a result starts by
taking that chain apart: a sequence succeeded because both of its parts did, and
a list of computations because each of them did.

A failure is the other half. It is the failure of one step, and all steps before
that one succeeded; nothing is known of those behind it, which never ran.

## Theorems

* `bind_eq_ok_iff`: A sequence succeeds exactly when both of its parts do.
* `map_eq_ok_iff`, `map_eq_error_iff`: Changing a result changes nothing else.
* `mapM_eq_ok_iff`: A list of computations succeeds exactly when each does.
* `exists_mapM_iff`, `mem_of_mapM`, `exists_of_mem_mapM`: When there are results,
  and which.
* `foldlM_cons_eq_ok_iff`: A fold succeeds exactly when its first step and the
  rest do.
* `foldlM_invariant`: What each step of a fold keeps, the fold keeps.
* `ne_error_iff`: What does not fail succeeds.
* `bind_eq_error_iff`: A sequence fails with its first part, or else with its
  second.
* `mapM_eq_error_iff`: A list of computations fails with the first that fails.
* `foldlM_eq_error_iff`: A fold fails with the first of its steps that fails.
-/

namespace Phrasebook

namespace Fallible

variable {ε α β : Type}

/-- A sequence succeeds exactly when both of its parts do. -/
theorem bind_eq_ok_iff (x : Except ε α) (f : α → Except ε β) (b : β) :
    (x >>= f) = .ok b ↔ ∃ a, x = .ok a ∧ f a = .ok b := by
  cases x with
  | error e =>
      constructor
      · intro h
        cases h
      · rintro ⟨a, ha, -⟩
        cases ha
  | ok a =>
      constructor
      · intro h
        exact ⟨a, rfl, h⟩
      · rintro ⟨a', ha, h⟩
        cases ha
        exact h

/-- Changing a result can neither fail nor mend a failure. -/
theorem map_eq_ok_iff (x : Except ε α) (f : α → β) (b : β) :
    x.map f = .ok b ↔ ∃ a, x = .ok a ∧ f a = b := by
  cases x with
  | error e => simp [Except.map]
  | ok a => simp [Except.map]

theorem map_eq_error_iff (x : Except ε α) (f : α → β) (e : ε) :
    x.map f = .error e ↔ x = .error e := by
  cases x with
  | error e => simp [Except.map]
  | ok a => simp [Except.map]

/-- A list of computations succeeds exactly when each of them does, with the
    results in order. -/
theorem mapM_eq_ok_iff (f : α → Except ε β) (xs : List α) (ys : List β) :
    xs.mapM f = .ok ys ↔ List.Forall₂ (fun x y => f x = .ok y) xs ys := by
  induction xs generalizing ys with
  | nil =>
      rw [List.mapM_nil, List.forall₂_nil_left_iff]
      constructor
      · intro h
        cases h
        rfl
      · intro h
        rw [h]
        rfl
  | cons x xs ih =>
      -- The first result and those of the rest are found one after the other.
      rw [List.mapM_cons, bind_eq_ok_iff, List.forall₂_cons_left_iff]
      constructor
      · rintro ⟨y, hy, h⟩
        rcases (bind_eq_ok_iff _ _ _).mp h with ⟨ys', hys, h⟩
        cases h
        exact ⟨y, ys', hy, (ih ys').mp hys, rfl⟩
      · rintro ⟨y, ys', hy, hys, rfl⟩
        refine ⟨y, hy, (bind_eq_ok_iff _ _ _).mpr ⟨ys', (ih ys').mpr hys, rfl⟩⟩

/-- A list of computations has results exactly when each of them has one. -/
theorem exists_mapM_iff (f : α → Except ε β) (xs : List α) :
    (∃ ys, xs.mapM f = .ok ys) ↔ ∀ x ∈ xs, ∃ y, f x = .ok y := by
  simp only [mapM_eq_ok_iff]
  induction xs with
  | nil => exact iff_of_true ⟨[], .nil⟩ (fun x hx => absurd hx List.not_mem_nil)
  | cons x xs ih =>
      rw [List.forall_mem_cons, ← ih]
      constructor
      · rintro ⟨ys, hys⟩
        rcases List.forall₂_cons_left_iff.mp hys with ⟨y, ys', hy, hys', rfl⟩
        exact ⟨⟨y, hy⟩, ys', hys'⟩
      · rintro ⟨⟨y, hy⟩, ys, hys⟩
        exact ⟨y :: ys, .cons hy hys⟩

/-- Among the results of a list of computations is the result of each. -/
theorem mem_of_mapM (f : α → Except ε β) (xs : List α) (ys : List β) (h : xs.mapM f = .ok ys)
    (x : α) (hx : x ∈ xs) (y : β) (hy : f x = .ok y) : y ∈ ys := by
  have hall := (mapM_eq_ok_iff f xs ys).mp h
  induction hall with
  | nil => exact absurd hx List.not_mem_nil
  | cons hfirst hrest ih =>
      rcases List.mem_cons.mp hx with rfl | hx
      · rw [hfirst] at hy
        cases hy
        exact List.mem_cons_self
      · exact List.mem_cons_of_mem _ (ih ((mapM_eq_ok_iff f _ _).mpr hrest) hx)

/-- Each result of a list of computations is the result of one of them. -/
theorem exists_of_mem_mapM (f : α → Except ε β) (xs : List α) (ys : List β)
    (h : xs.mapM f = .ok ys) (y : β) (hy : y ∈ ys) : ∃ x ∈ xs, f x = .ok y := by
  have hall := (mapM_eq_ok_iff f xs ys).mp h
  induction hall with
  | nil => exact absurd hy List.not_mem_nil
  | @cons x first xs ys hfirst hrest ih =>
      rcases List.mem_cons.mp hy with rfl | hy
      · exact ⟨x, List.mem_cons_self, hfirst⟩
      · rcases ih ((mapM_eq_ok_iff f _ _).mpr hrest) hy with ⟨x', hx', hy'⟩
        exact ⟨x', List.mem_cons_of_mem _ hx', hy'⟩

/-- A fold succeeds exactly when its first step does and the fold from there. -/
theorem foldlM_cons_eq_ok_iff (f : β → α → Except ε β) (b c : β) (x : α) (xs : List α) :
    (x :: xs).foldlM f b = .ok c ↔ ∃ b', f b x = .ok b' ∧ xs.foldlM f b' = .ok c := by
  rw [List.foldlM_cons, bind_eq_ok_iff]

/-- What holds at the start of a fold and is kept by each step holds at its end. -/
theorem foldlM_invariant (P : β → Prop) (f : β → α → Except ε β) (xs : List α) (b c : β)
    (hstart : P b) (hstep : ∀ b' x c', P b' → f b' x = .ok c' → P c')
    (h : xs.foldlM f b = .ok c) : P c := by
  induction xs generalizing b with
  | nil =>
      cases h
      exact hstart
  | cons x xs ih =>
      rcases (foldlM_cons_eq_ok_iff f b c x xs).mp h with ⟨next, hnext, hrest⟩
      exact ih next (hstep b x next hstart hnext) hrest

/-- What does not fail succeeds. -/
theorem ne_error_iff (x : Except ε α) : (∀ e, x ≠ .error e) ↔ ∃ a, x = .ok a := by
  cases x with
  | error e =>
      constructor
      · intro h
        exact absurd rfl (h e)
      · rintro ⟨a, ha⟩
        cases ha
  | ok a =>
      constructor
      · intro _
        exact ⟨a, rfl⟩
      · intro _ e he
        cases he

/-- A sequence fails with its first part, or with its second if the first
    succeeds. -/
theorem bind_eq_error_iff (x : Except ε α) (f : α → Except ε β) (e : ε) :
    (x >>= f) = .error e ↔ x = .error e ∨ ∃ a, x = .ok a ∧ f a = .error e := by
  cases x with
  | error e' =>
      constructor
      · intro h
        cases h
        exact Or.inl rfl
      · rintro (h | ⟨a, ha, -⟩)
        · cases h
          rfl
        · cases ha
  | ok a =>
      constructor
      · intro h
        exact Or.inr ⟨a, rfl, h⟩
      · rintro (h | ⟨a', ha, h⟩)
        · cases h
        · cases ha
          exact h

/-- A list of computations fails with one of them, and those before it succeeded. -/
theorem mapM_eq_error_iff (f : α → Except ε β) (xs : List α) (e : ε) :
    xs.mapM f = .error e ↔ ∃ front x back,
      xs = front ++ x :: back ∧ (∀ y ∈ front, ∃ b, f y = .ok b) ∧ f x = .error e := by
  induction xs with
  | nil =>
      constructor
      · intro h
        cases h
      · rintro ⟨front, x, back, hxs, -, -⟩
        exact absurd hxs.symm (List.append_ne_nil_of_right_ne_nil _ (List.cons_ne_nil _ _))
  | cons first rest ih =>
      -- The results are only put together, which cannot fail.
      have hchain : (first :: rest).mapM f = .error e ↔
          f first = .error e ∨ (∃ b, f first = .ok b) ∧ rest.mapM f = .error e := by
        rw [List.mapM_cons, bind_eq_error_iff]
        refine or_congr_right ?_
        rw [← exists_and_right]
        refine exists_congr (fun b => and_congr_right (fun _ => ?_))
        rw [bind_eq_error_iff]
        simp only [pure, Except.pure, reduceCtorEq, and_false, exists_false, or_false]
      rw [hchain, ih]
      constructor
      · rintro (h | ⟨hfirst, front, x, back, rfl, hfront, hx⟩)
        · exact ⟨[], first, rest, rfl, fun y hy => absurd hy List.not_mem_nil, h⟩
        · exact ⟨first :: front, x, back, rfl, List.forall_mem_cons.mpr ⟨hfirst, hfront⟩, hx⟩
      · rintro ⟨front, x, back, hxs, hfront, hx⟩
        cases front with
        | nil =>
            rw [List.nil_append, List.cons.injEq] at hxs
            rw [hxs.1]
            exact Or.inl hx
        | cons first' front =>
            rw [List.cons_append, List.cons.injEq] at hxs
            rcases hxs with ⟨rfl, hrest⟩
            rcases List.forall_mem_cons.mp hfront with ⟨hfirst, hfront⟩
            exact Or.inr ⟨hfirst, front, x, back, hrest, hfront, hx⟩

/-- A fold fails with one of its steps, and those before it succeeded. -/
theorem foldlM_eq_error_iff (f : β → α → Except ε β) (b : β) (xs : List α) (e : ε) :
    xs.foldlM f b = .error e ↔ ∃ front x back b',
      xs = front ++ x :: back ∧ front.foldlM f b = .ok b' ∧ f b' x = .error e := by
  induction xs generalizing b with
  | nil =>
      constructor
      · intro h
        cases h
      · rintro ⟨front, x, back, b', hxs, -, -⟩
        exact absurd hxs.symm (List.append_ne_nil_of_right_ne_nil _ (List.cons_ne_nil _ _))
  | cons first rest ih =>
      rw [List.foldlM_cons, bind_eq_error_iff]
      constructor
      · rintro (h | ⟨next, hnext, h⟩)
        · exact ⟨[], first, rest, b, rfl, rfl, h⟩
        · rcases (ih next).mp h with ⟨front, x, back, b', rfl, hfront, hx⟩
          exact ⟨first :: front, x, back, b', rfl,
            (foldlM_cons_eq_ok_iff f b b' first front).mpr ⟨next, hnext, hfront⟩, hx⟩
      · rintro ⟨front, x, back, b', hxs, hfront, hx⟩
        -- The step that fails is the first one or one of the rest.
        cases front with
        | nil =>
            cases hfront
            rw [List.nil_append, List.cons.injEq] at hxs
            rw [hxs.1]
            exact Or.inl hx
        | cons first' front =>
            rw [List.cons_append, List.cons.injEq] at hxs
            rcases hxs with ⟨rfl, hrest⟩
            rcases (foldlM_cons_eq_ok_iff f b b' first front).mp hfront with ⟨next, hnext, hfront⟩
            exact Or.inr ⟨next, hnext, (ih next).mpr ⟨front, x, back, b', hrest, hfront, hx⟩⟩

end Fallible

end Phrasebook
