import Mathlib.Data.List.Basic

/-!
Which errors a computation can end in. For `Except` a postcondition on the error
value; for `EStateM` the same from every state; and the rules that follow the
structure of a program.
-/

namespace ErrorsIn

universe u

section Except

variable {ε α β : Type u} {P : ε → Prop}

/-- Every error of `x` satisfies `P`. -/
def OfExcept (P : ε → Prop) (x : Except ε α) : Prop := ∀ error, x = .error error → P error

theorem ofExcept_ok (a : α) : OfExcept P (.ok a : Except ε α) := by
  intro error h
  cases h

theorem ofExcept_error {error : ε} (h : P error) : OfExcept P (.error error : Except ε α) := by
  intro error' heq
  cases heq
  exact h

/-- A value behind a check. -/
theorem ofExcept_guard {c : Prop} [Decidable c] {a : α} {error : ε} (h : P error) :
    OfExcept P (if c then .ok a else .error error : Except ε α) := by
  split
  · exact ofExcept_ok a
  · exact ofExcept_error h

theorem exists_guard_eq_ok {c : Prop} [Decidable c] {a : α} {error : ε} :
    (∃ b, (if c then .ok a else .error error : Except ε α) = .ok b) ↔ c := by
  by_cases hc : c
  · rw [if_pos hc]
    exact iff_of_true ⟨a, rfl⟩ hc
  · rw [if_neg hc]
    refine iff_of_false ?_ hc
    rintro ⟨b, h⟩
    cases h

/-- With one possible error, that error is the absence of a value. -/
theorem OfExcept.map_eq_error_iff {error : ε} {x : Except ε α} (hx : OfExcept (· = error) x)
    (f : α → β) : f <$> x = .error error ↔ ¬ ∃ a, x = .ok a := by
  cases x with
  | ok a =>
      refine iff_of_false ?_ (not_not.mpr ⟨a, rfl⟩)
      intro h
      cases h
  | error e =>
      obtain rfl : e = error := hx e rfl
      refine iff_of_true rfl ?_
      rintro ⟨a, h⟩
      cases h

theorem OfExcept.bind {x : Except ε α} {f : α → Except ε β} (hx : OfExcept P x)
    (hf : ∀ a, OfExcept P (f a)) : OfExcept P (x >>= f) := by
  cases x with
  | ok a => exact hf a
  | error e => exact ofExcept_error (hx e rfl)

theorem OfExcept.map {x : Except ε α} (hx : OfExcept P x) (f : α → β) :
    OfExcept P (f <$> x) := by
  cases x with
  | ok a => exact ofExcept_ok _
  | error e => exact ofExcept_error (hx e rfl)

theorem ofExcept_mapM {f : α → Except ε β} (hf : ∀ a, OfExcept P (f a)) (xs : List α) :
    OfExcept P (xs.mapM f) := by
  induction xs with
  | nil => exact ofExcept_ok _
  | cons x rest ih =>
      rw [List.mapM_cons]
      apply (hf x).bind
      intro y
      apply ih.bind
      intro ys
      exact ofExcept_ok _

theorem ofExcept_foldlM {f : β → α → Except ε β} (hf : ∀ b a, OfExcept P (f b a))
    (xs : List α) (init : β) : OfExcept P (xs.foldlM f init) := by
  induction xs generalizing init with
  | nil => exact ofExcept_ok _
  | cons x rest ih =>
      rw [List.foldlM_cons]
      apply (hf init x).bind
      intro next
      exact ih next

end Except

section EStateM

variable {ε σ α β : Type u} {P : ε → Prop}

/-- Every error of `x` satisfies `P`, from every state. -/
def OfRun (P : ε → Prop) (x : EStateM ε σ α) : Prop :=
  ∀ s error s', x.run s = .error error s' → P error

theorem ofRun_of_ok {x : EStateM ε σ α} (h : ∀ s, ∃ a s', x.run s = .ok a s') : OfRun P x := by
  intro s error s' herror
  obtain ⟨a, s'', hok⟩ := h s
  rw [hok] at herror
  cases herror

theorem OfRun.bind {x : EStateM ε σ α} {f : α → EStateM ε σ β} (hx : OfRun P x)
    (hf : ∀ a, OfRun P (f a)) : OfRun P (x >>= f) := by
  intro s error s' herror
  rw [EStateM.run_bind] at herror
  cases hrun : x.run s with
  | ok a s₁ =>
      rw [hrun] at herror
      exact hf a s₁ error s' herror
  | error e s₁ =>
      rw [hrun] at herror
      cases herror
      exact hx s error s' hrun

end EStateM

end ErrorsIn
