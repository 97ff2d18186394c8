import Mathlib.Data.List.Basic

/-!
That a computation ends without an error. The rules are equivalences: an action
whose run is known is taken off the front, and a loop completes when each of its
rounds does.
-/

namespace Completion

universe u

section Except

variable {ε α β : Type u}

/-- `x` returns a value. -/
def Succeeds (x : Except ε α) : Prop := ∃ a, x = .ok a

theorem succeeds_ok (a : α) : Succeeds (.ok a : Except ε α) := ⟨a, rfl⟩

theorem not_succeeds_error (error : ε) : ¬ Succeeds (.error error : Except ε α) := by
  rintro ⟨a, h⟩
  cases h

theorem succeeds_map_iff {x : Except ε α} {f : α → β} : Succeeds (f <$> x) ↔ Succeeds x := by
  cases x with
  | ok a => exact iff_of_true (succeeds_ok (f a)) (succeeds_ok a)
  | error error => exact iff_of_false (not_succeeds_error error) (not_succeeds_error error)

theorem succeeds_bind_iff {x : Except ε α} {f : α → Except ε β} :
    Succeeds (x >>= f) ↔ ∃ a, x = .ok a ∧ Succeeds (f a) := by
  cases x with
  | ok a =>
      constructor
      · intro h
        exact ⟨a, rfl, h⟩
      · rintro ⟨a', heq, h⟩
        cases heq
        exact h
  | error error =>
      refine iff_of_false (not_succeeds_error error) ?_
      rintro ⟨a, heq, _⟩
      cases heq

theorem succeeds_mapM_iff {f : α → Except ε β} {xs : List α} :
    Succeeds (xs.mapM f) ↔ ∀ x ∈ xs, Succeeds (f x) := by
  induction xs with
  | nil => exact iff_of_true (succeeds_ok []) (by simp)
  | cons x rest ih =>
      rw [List.mapM_cons, List.forall_mem_cons, ← ih, succeeds_bind_iff]
      constructor
      · rintro ⟨y, hy, hrest⟩
        obtain ⟨ys, hys, _⟩ := succeeds_bind_iff.mp hrest
        exact ⟨⟨y, hy⟩, ys, hys⟩
      · rintro ⟨⟨y, hy⟩, ys, hys⟩
        refine ⟨y, hy, ?_⟩
        rw [hys]
        exact succeeds_ok (y :: ys)

/-- A loop over a state: whether a round completes does not depend on the state
as long as the invariant holds of it. -/
theorem succeeds_foldlM_iff {f : β → α → Except ε β} {I : β → Prop} {D : α → Prop}
    (hround : ∀ b a, I b → (Succeeds (f b a) ↔ D a))
    (hkeeps : ∀ b a c, I b → f b a = .ok c → I c) {xs : List α} {init : β} (hinit : I init) :
    Succeeds (xs.foldlM f init) ↔ ∀ a ∈ xs, D a := by
  induction xs generalizing init with
  | nil => exact iff_of_true (succeeds_ok init) (by simp)
  | cons x rest ih =>
      rw [List.foldlM_cons, List.forall_mem_cons, succeeds_bind_iff]
      constructor
      · rintro ⟨next, hnext, hrest⟩
        exact ⟨(hround init x hinit).mp ⟨next, hnext⟩,
          (ih (hkeeps init x next hinit hnext)).mp hrest⟩
      · rintro ⟨hfirst, hrest⟩
        obtain ⟨next, hnext⟩ := (hround init x hinit).mpr hfirst
        exact ⟨next, hnext, (ih (hkeeps init x next hinit hnext)).mpr hrest⟩

end Except

section EStateM

variable {ε σ α β : Type u} {s : σ}

/-- From `s`, `x` ends without an error. -/
def Finishes (x : EStateM ε σ α) (s : σ) : Prop := ∃ a s', x.run s = .ok a s'

theorem finishes_of_run {x : EStateM ε σ α} {a : α} {s' : σ} (hrun : x.run s = .ok a s') :
    Finishes x s := ⟨a, s', hrun⟩

theorem not_finishes_of_run {x : EStateM ε σ α} {error : ε} {s' : σ}
    (hrun : x.run s = .error error s') : ¬ Finishes x s := by
  rintro ⟨a, s'', h⟩
  rw [hrun] at h
  cases h

/-- An action whose run is known, off the front. -/
theorem finishes_bind_of_run {x : EStateM ε σ β} {f : β → EStateM ε σ α} {b : β} {s' : σ}
    (hrun : x.run s = .ok b s') : Finishes (x >>= f) s ↔ Finishes (f b) s' := by
  simp only [Finishes, EStateM.run_bind, hrun]

/-- An end that cannot fail. -/
theorem finishes_bind_of_rest {x : EStateM ε σ β} {f : β → EStateM ε σ α}
    (hrest : ∀ b s', Finishes (f b) s') : Finishes (x >>= f) s ↔ Finishes x s := by
  constructor
  · rintro ⟨a, s', hrun⟩
    rw [EStateM.run_bind] at hrun
    cases hx : x.run s with
    | ok b s₁ => exact finishes_of_run hx
    | error error s₁ =>
        rw [hx] at hrun
        cases hrun
  · rintro ⟨b, s', hrun⟩
    exact (finishes_bind_of_run hrun).mpr (hrest b s')

end EStateM

end Completion
