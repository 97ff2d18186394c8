import Mathlib.Data.List.Forall2

/-!
What a computation returns when it ends without an error. Nothing is said of a
run that ends in one. The rules take a program apart from its first action on,
and all but those of a loop are equivalences, so that they can rewrite.
-/

namespace Outcomes

universe u

section Except

variable {ε α β : Type u} {Q : α → Prop}

/-- Every value that `x` can return satisfies `Q`. -/
def Returns (x : Except ε α) (Q : α → Prop) : Prop := ∀ a, x = .ok a → Q a

theorem returns_ok {a : α} : Returns (.ok a : Except ε α) Q ↔ Q a := by
  constructor
  · intro h
    exact h a rfl
  · intro h a' heq
    cases heq
    exact h

theorem returns_error {error : ε} : Returns (.error error : Except ε α) Q := by
  intro a heq
  cases heq

theorem returns_bind {x : Except ε β} {f : β → Except ε α} :
    Returns (x >>= f) Q ↔ Returns x fun b => Returns (f b) Q := by
  cases x with
  | ok b => exact (returns_ok (Q := fun b => Returns (f b) Q)).symm
  | error error => exact ⟨fun _ => returns_error, fun _ => returns_error⟩

theorem returns_map {x : Except ε β} {f : β → α} :
    Returns (f <$> x) Q ↔ Returns x fun b => Q (f b) := by
  cases x with
  | ok b => exact returns_ok.trans (returns_ok (Q := fun b => Q (f b))).symm
  | error error => exact ⟨fun _ => returns_error, fun _ => returns_error⟩

/-- Each element of the result is what its round returned. -/
theorem returns_mapM {f : α → Except ε β} (xs : List α) :
    Returns (xs.mapM f) (List.Forall₂ (fun x y => f x = .ok y) xs) := by
  induction xs with
  | nil => exact returns_ok.mpr .nil
  | cons x rest ih =>
      rw [List.mapM_cons, returns_bind]
      intro y hy
      rw [returns_bind]
      intro ys hys
      exact returns_ok.mpr (.cons hy (ih ys hys))

/-- A relation to the initial value that each round keeps. -/
theorem returns_foldlM {f : β → α → Except ε β} {R : β → β → Prop} (hrefl : ∀ b, R b b)
    (htrans : ∀ {b c d}, R b c → R c d → R b d) (hf : ∀ b a, Returns (f b a) (R b))
    (xs : List α) (init : β) : Returns (xs.foldlM f init) (R init) := by
  induction xs generalizing init with
  | nil => exact returns_ok.mpr (hrefl init)
  | cons x rest ih =>
      rw [List.foldlM_cons, returns_bind]
      intro next hnext last hlast
      exact htrans (hf init x next hnext) (ih next last hlast)

/-- The same where only the rounds of the loop are known to keep it. -/
theorem returns_foldlM_of_mem {f : β → α → Except ε β} {R : β → β → Prop} (hrefl : ∀ b, R b b)
    (htrans : ∀ {b c d}, R b c → R c d → R b d) {xs : List α}
    (hf : ∀ b, ∀ a ∈ xs, Returns (f b a) (R b)) (init : β) :
    Returns (xs.foldlM f init) (R init) := by
  induction xs generalizing init with
  | nil => exact returns_ok.mpr (hrefl init)
  | cons x rest ih =>
      rw [List.foldlM_cons, returns_bind]
      intro next hnext last hlast
      have htail := ih (fun b a ha => hf b a (List.mem_cons_of_mem x ha)) next last hlast
      exact htrans (hf init x List.mem_cons_self next hnext) htail

end Except

section EStateM

variable {ε σ α β : Type u} {Q : α → σ → Prop} {s : σ}

/-- From `s`, every value and state that `x` can end in satisfy `Q`. -/
def Ends (x : EStateM ε σ α) (s : σ) (Q : α → σ → Prop) : Prop :=
  ∀ a s', x.run s = .ok a s' → Q a s'

theorem ends_of_run {x : EStateM ε σ α} {a : α} {s' : σ} (hrun : x.run s = .ok a s') :
    Ends x s Q ↔ Q a s' := by
  constructor
  · intro h
    exact h a s' hrun
  · intro h a' s'' heq
    rw [hrun] at heq
    cases heq
    exact h

theorem ends_pure {a : α} : Ends (pure a : EStateM ε σ α) s Q ↔ Q a s := ends_of_run rfl

theorem ends_throw {error : ε} : Ends (throw error : EStateM ε σ α) s Q := by
  intro a s' heq
  cases heq

theorem ends_get {Q : σ → σ → Prop} : Ends (get : EStateM ε σ σ) s Q ↔ Q s s := ends_of_run rfl

theorem ends_modify {Q : PUnit → σ → Prop} {f : σ → σ} :
    Ends (modify f : EStateM ε σ PUnit) s Q ↔ Q ⟨⟩ (f s) := ends_of_run rfl

theorem ends_bind {x : EStateM ε σ β} {f : β → EStateM ε σ α} :
    Ends (x >>= f) s Q ↔ Ends x s fun b s' => Ends (f b) s' Q := by
  constructor
  · intro h b s₁ hx a s' hf
    apply h a s'
    rw [EStateM.run_bind, hx]
    exact hf
  · intro h a s' heq
    rw [EStateM.run_bind] at heq
    cases hx : x.run s with
    | ok b s₁ =>
        rw [hx] at heq
        exact h b s₁ hx a s' heq
    | error error s₁ =>
        rw [hx] at heq
        cases heq

theorem Ends.mono {x : EStateM ε σ α} {Q' : α → σ → Prop} (h : Ends x s Q)
    (hsub : ∀ a s', Q a s' → Q' a s') : Ends x s Q' :=
  fun a s' hrun => hsub a s' (h a s' hrun)

/-- A loop whose rounds are computations of a value only. -/
theorem run_foldlM {f : β → α → EStateM ε σ β} {g : β → α → β} {xs : List α}
    (hf : ∀ b, ∀ a ∈ xs, (f b a).run s = .ok (g b a) s) (init : β) :
    (xs.foldlM f init).run s = .ok (xs.foldl g init) s := by
  induction xs generalizing init with
  | nil => rfl
  | cons x rest ih =>
      have hfirst := hf init x List.mem_cons_self
      have hrest := ih (fun b a ha => hf b a (List.mem_cons_of_mem x ha)) (g init x)
      rw [List.foldlM_cons, EStateM.run_bind, hfirst]
      exact hrest

/-- `x` leaves the part of the state that `view` shows as it is. -/
def Preserves {τ : Type u} (view : σ → τ) (x : EStateM ε σ α) : Prop :=
  ∀ s, Ends x s fun _ s' => view s' = view s

section View

variable {τ : Type u} {view : σ → τ}

theorem preserves_pure (a : α) : Preserves view (pure a : EStateM ε σ α) :=
  fun _ => ends_pure.mpr rfl

/-- The rest of the program may rely on the part that is left alone. -/
theorem Preserves.ends_bind {x : EStateM ε σ β} {f : β → EStateM ε σ α} (hx : Preserves view x)
    (hf : ∀ b s', view s' = view s → Ends (f b) s' Q) : Ends (x >>= f) s Q :=
  Outcomes.ends_bind.mpr ((hx s).mono hf)

theorem Preserves.bind {x : EStateM ε σ β} {f : β → EStateM ε σ α} (hx : Preserves view x)
    (hf : ∀ b, Preserves view (f b)) : Preserves view (x >>= f) := by
  intro s
  refine hx.ends_bind fun b s₁ hview => ?_
  exact (hf b s₁).mono fun _ _ hview' => hview'.trans hview

theorem preserves_foldlM {f : β → α → EStateM ε σ β} (hf : ∀ b a, Preserves view (f b a))
    (xs : List α) (init : β) : Preserves view (xs.foldlM f init) := by
  induction xs generalizing init with
  | nil => exact preserves_pure init
  | cons x rest ih =>
      rw [List.foldlM_cons]
      exact (hf init x).bind ih

end View

end EStateM

end Outcomes
