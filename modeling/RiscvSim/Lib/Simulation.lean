import Mathlib.Data.List.Forall2

/-!
Two computations side by side. The second answers the first when it ends in the
same way, with related values and related states; some errors of the first
computation excuse the second from answering at all. The rules follow the
structure of a program, and a loop answers when each of its rounds does.
-/

namespace Simulation

universe u

section Except

variable {ε α β γ δ ι : Type u} {excused : ε → Prop} {V : α → β → Prop} {W : γ → δ → Prop}

/-- How the second computation ends, given how the first one does. -/
inductive Answers (excused : ε → Prop) (V : α → β → Prop) : Except ε α → Except ε β → Prop
  | ok {a : α} {b : β} (h : V a b) : Answers excused V (.ok a) (.ok b)
  | error (error : ε) : Answers excused V (.error error) (.error error)
  | excused {error : ε} (h : excused error) (y : Except ε β) : Answers excused V (.error error) y

theorem answers_refl (x : Except ε α) : Answers excused Eq x x := by
  cases x with
  | ok a => exact .ok rfl
  | error error => exact .error error

theorem Answers.bind {x : Except ε α} {y : Except ε β} {f : α → Except ε γ} {g : β → Except ε δ}
    (h : Answers excused V x y) (hf : ∀ a b, V a b → Answers excused W (f a) (g b)) :
    Answers excused W (x >>= f) (y >>= g) := by
  cases h with
  | ok hab => exact hf _ _ hab
  | error error => exact .error error
  | excused h y => exact .excused h _

/-- Both first parts return the same value. -/
theorem Answers.next {x y : Except ε α} {f : α → Except ε γ} {g : α → Except ε δ}
    (h : Answers excused Eq x y) (hf : ∀ a, Answers excused W (f a) (g a)) :
    Answers excused W (x >>= f) (y >>= g) := by
  refine h.bind ?_
  rintro a _ rfl
  exact hf a

theorem Answers.map {x : Except ε α} {y : Except ε β} {f : α → γ} {g : β → δ}
    (h : Answers excused V x y) (hf : ∀ a b, V a b → W (f a) (g b)) :
    Answers excused W (f <$> x) (g <$> y) := by
  cases h with
  | ok hab => exact .ok (hf _ _ hab)
  | error error => exact .error error
  | excused h y => exact .excused h _

theorem answers_mapM {f : ι → Except ε α} {g : ι → Except ε α} (xs : List ι)
    (hf : ∀ i, Answers excused Eq (f i) (g i)) :
    Answers excused Eq (xs.mapM f) (xs.mapM g) := by
  induction xs with
  | nil => exact answers_refl _
  | cons i rest ih =>
      rw [List.mapM_cons, List.mapM_cons]
      exact (hf i).next fun y => ih.next fun ys => answers_refl _

theorem answers_foldlM {f : α → ι → Except ε α} {g : β → ι → Except ε β} (xs : List ι)
    (hf : ∀ i a b, V a b → Answers excused V (f a i) (g b i)) {a : α} {b : β} (hab : V a b) :
    Answers excused V (xs.foldlM f a) (xs.foldlM g b) := by
  induction xs generalizing a b with
  | nil => exact .ok hab
  | cons i rest ih =>
      rw [List.foldlM_cons, List.foldlM_cons]
      exact (hf i a b hab).bind fun _ _ h => ih h

end Except

section EStateM

variable {ε σ τ α β γ δ ι : Type u} {excused : ε → Prop} {R : σ → τ → Prop} {V : α → β → Prop}
  {W : γ → δ → Prop}

/-- How the second run ends, given how the first one does. -/
inductive AnswersRun (excused : ε → Prop) (R : σ → τ → Prop) (V : α → β → Prop) :
    EStateM.Result ε σ α → EStateM.Result ε τ β → Prop
  | ok {a : α} {b : β} {s : σ} {t : τ} (h : V a b) (hst : R s t) :
      AnswersRun excused R V (.ok a s) (.ok b t)
  | error (error : ε) {s : σ} {t : τ} (hst : R s t) :
      AnswersRun excused R V (.error error s) (.error error t)
  | excused {error : ε} (h : excused error) (s : σ) (run : EStateM.Result ε τ β) :
      AnswersRun excused R V (.error error s) run

/-- Both runs end in the same way, in related states. -/
abbrev SameEnd (R : σ → τ → Prop) : EStateM.Result ε σ α → EStateM.Result ε τ α → Prop :=
  AnswersRun (fun _ => False) R Eq

theorem SameEnd.mono {R' : σ → τ → Prop} (hR : ∀ s t, R s t → R' s t)
    {run : EStateM.Result ε σ α} {run' : EStateM.Result ε τ α} (h : SameEnd R run run') :
    SameEnd R' run run' := by
  cases h with
  | ok hab hst => exact .ok hab (hR _ _ hst)
  | error error hst => exact .error error (hR _ _ hst)
  | excused h => exact h.elim

/-- The state that a run leaves, however it ends. -/
def stateOf : EStateM.Result ε σ α → σ
  | .ok _ s => s
  | .error _ s => s

/-- An end that leaves a part of the state alone. -/
theorem stateOf_bind_of_rest {p : σ → γ} {x : EStateM ε σ α} {f : α → EStateM ε σ β}
    (hrest : ∀ a s, p (stateOf ((f a).run s)) = p s) (s : σ) :
    p (stateOf ((x >>= f).run s)) = p (stateOf (x.run s)) := by
  rw [EStateM.run_bind]
  cases x.run s with
  | ok a s' => exact hrest a s'
  | error error s' => rfl

theorem SameEnd.stateOf {run : EStateM.Result ε σ α} {run' : EStateM.Result ε τ α}
    (h : SameEnd R run run') : R (stateOf run) (stateOf run') := by
  cases h with
  | ok _ hst => exact hst
  | error _ hst => exact hst
  | excused h => exact h.elim

theorem SameEnd.eq {R : σ → σ → Prop} (hR : ∀ s t, R s t → s = t)
    {run run' : EStateM.Result ε σ α} (h : SameEnd R run run') : run = run' := by
  cases h with
  | ok hab hst => rw [hab, hR _ _ hst]
  | error error hst => rw [hR _ _ hst]
  | excused h => exact h.elim

/-- An answer without an excuse. -/
theorem AnswersRun.sameEnd {run : EStateM.Result ε σ α} {run' : EStateM.Result ε τ α}
    (h : AnswersRun excused R Eq run run') :
    (∃ error s, excused error ∧ run = .error error s) ∨ SameEnd R run run' := by
  cases h with
  | ok hab hst => exact .inr (.ok hab hst)
  | error error hst => exact .inr (.error error hst)
  | excused h s run => exact .inl ⟨_, s, h, rfl⟩

/-- From related states, `y` answers `x`. -/
def Simulates (excused : ε → Prop) (R : σ → τ → Prop) (V : α → β → Prop) (x : EStateM ε σ α)
    (y : EStateM ε τ β) : Prop :=
  ∀ s t, R s t → AnswersRun excused R V (x.run s) (y.run t)

theorem simulates_pure {a : α} {b : β} (h : V a b) :
    Simulates excused R V (pure a : EStateM ε σ α) (pure b) :=
  fun _ _ hst => .ok h hst

theorem simulates_throw (error : ε) :
    Simulates excused R V (throw error : EStateM ε σ α) (throw error) :=
  fun _ _ hst => .error error hst

theorem simulates_get : Simulates excused R R (get : EStateM ε σ σ) (get : EStateM ε τ τ) :=
  fun _ _ hst => .ok hst hst

theorem Simulates.bind {x : EStateM ε σ α} {y : EStateM ε τ β} {f : α → EStateM ε σ γ}
    {g : β → EStateM ε τ δ} (hx : Simulates excused R V x y)
    (hf : ∀ a b, V a b → Simulates excused R W (f a) (g b)) :
    Simulates excused R W (x >>= f) (y >>= g) := by
  intro s t hst
  rw [EStateM.run_bind, EStateM.run_bind]
  have hfirst := hx s t hst
  generalize x.run s = first at hfirst ⊢
  generalize y.run t = second at hfirst ⊢
  cases hfirst with
  | ok hab hst' => exact hf _ _ hab _ _ hst'
  | error error hst' => exact .error error hst'
  | excused h s' => exact .excused h s' _

/-- Both first parts return the same value. -/
theorem Simulates.next {x : EStateM ε σ α} {y : EStateM ε τ α} {f : α → EStateM ε σ γ}
    {g : α → EStateM ε τ δ} (hx : Simulates excused R Eq x y)
    (hf : ∀ a, Simulates excused R W (f a) (g a)) :
    Simulates excused R W (x >>= f) (y >>= g) := by
  refine hx.bind ?_
  rintro a _ rfl
  exact hf a

theorem simulates_foldlM {f : α → ι → EStateM ε σ α} {g : α → ι → EStateM ε τ α} (xs : List ι)
    (hf : ∀ a i, Simulates excused R Eq (f a i) (g a i)) (init : α) :
    Simulates excused R Eq (xs.foldlM f init) (xs.foldlM g init) := by
  induction xs generalizing init with
  | nil => exact simulates_pure rfl
  | cons i rest ih =>
      rw [List.foldlM_cons, List.foldlM_cons]
      exact (hf init i).next ih

end EStateM

end Simulation
