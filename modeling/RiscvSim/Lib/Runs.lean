/-!
Runs of a step relation, as the sequence of their states. What each step keeps
holds along the whole run, and a relation between neighbours that is reflexive
and transitive holds between any two positions.
-/

namespace Runs

universe u v

variable {σ : Type u} {step : σ → σ → Prop} {trace : Nat → σ} {n : Nat}

/-- `trace 0` to `trace n` are the states of a run of `n` steps. -/
def IsRun (step : σ → σ → Prop) (trace : Nat → σ) (n : Nat) : Prop :=
  ∀ k < n, step (trace k) (trace (k + 1))

theorem isRun_zero : IsRun step trace 0 := by
  intro k hk
  omega

/-- One more step in front. -/
def cons (s : σ) (trace : Nat → σ) : Nat → σ
  | 0 => s
  | k + 1 => trace k

theorem IsRun.cons {s : σ} (hrun : IsRun step trace n) (hstep : step s (trace 0)) :
    IsRun step (cons s trace) (n + 1) := by
  intro k hk
  cases k with
  | zero => exact hstep
  | succ k => exact hrun k (by omega)

theorem IsRun.invariant {P : σ → Prop} (hrun : IsRun step trace n) (hstart : P (trace 0))
    (hkeeps : ∀ s s', step s s' → P s → P s') : ∀ k ≤ n, P (trace k) := by
  intro k hk
  induction k with
  | zero => exact hstart
  | succ k ih => exact hkeeps _ _ (hrun k (by omega)) (ih (by omega))

/-- The steps from `i` to `j` are those of the relation, so the ends are related. -/
theorem IsRun.relates {R : σ → σ → Prop} (hrun : IsRun step trace n) (hrefl : ∀ s, R s s)
    (htrans : ∀ {s t u}, R s t → R t u → R s u) {i j : Nat} (hij : i ≤ j) (hj : j ≤ n)
    (hsteps : ∀ k, i ≤ k → k < j → step (trace k) (trace (k + 1)) →
      R (trace k) (trace (k + 1))) : R (trace i) (trace j) := by
  induction hij with
  | refl => exact hrefl _
  | @step j hij ih =>
      have hbefore := ih (by omega) fun k hik hkj => hsteps k hik (by omega)
      exact htrans hbefore (hsteps j hij (by omega) (hrun j (by omega)))

/-- A run of `n` steps goes from `s` to `s'`. -/
def Leads (step : σ → σ → Prop) (n : Nat) (s s' : σ) : Prop :=
  ∃ trace, IsRun step trace n ∧ trace 0 = s ∧ trace n = s'

theorem leads_zero_iff {s s' : σ} : Leads step 0 s s' ↔ s = s' := by
  constructor
  · rintro ⟨trace, _, hfirst, hlast⟩
    exact hfirst.symm.trans hlast
  · rintro rfl
    exact ⟨fun _ => s, isRun_zero, rfl, rfl⟩

theorem leads_succ_iff {s s' : σ} :
    Leads step (n + 1) s s' ↔ ∃ mid, step s mid ∧ Leads step n mid s' := by
  constructor
  · rintro ⟨trace, hrun, rfl, hlast⟩
    refine ⟨trace 1, hrun 0 (by omega), fun k => trace (k + 1), ?_, rfl, hlast⟩
    exact fun k hk => hrun (k + 1) (by omega)
  · rintro ⟨mid, hstep, trace, hrun, rfl, hlast⟩
    exact ⟨cons s trace, hrun.cons hstep, rfl, hlast⟩

theorem leads_one {s s' : σ} (hstep : step s s') : Leads step 1 s s' :=
  leads_succ_iff.mpr ⟨s', hstep, leads_zero_iff.mpr rfl⟩

theorem Leads.trans {s t u : σ} {k : Nat} (hfront : Leads step n s t) (hback : Leads step k t u) :
    Leads step (n + k) s u := by
  induction n generalizing s with
  | zero =>
      obtain rfl := leads_zero_iff.mp hfront
      rwa [Nat.zero_add]
  | succ n ih =>
      obtain ⟨mid, hstep, hrest⟩ := leads_succ_iff.mp hfront
      rw [Nat.add_right_comm]
      exact leads_succ_iff.mpr ⟨mid, hstep, ih hrest⟩

/-- A run taken apart at its last step. -/
theorem leads_succ_last_iff {s s' : σ} :
    Leads step (n + 1) s s' ↔ ∃ mid, Leads step n s mid ∧ step mid s' := by
  constructor
  · rintro ⟨trace, hrun, hfirst, rfl⟩
    exact ⟨trace n, ⟨trace, fun k hk => hrun k (by omega), hfirst, rfl⟩, hrun n (by omega)⟩
  · rintro ⟨mid, hfront, hstep⟩
    exact hfront.trans (leads_one hstep)

/-- A relation that each step of one machine carries to the other is carried
along a run. -/
theorem Leads.simulate {τ : Type v} {step' : τ → τ → Prop} {R : σ → τ → Prop}
    (hsteps : ∀ {s t s'}, R s t → step s s' → ∃ t', step' t t' ∧ R s' t')
    {s s' : σ} {t : τ} (hlead : Leads step n s s') (hrelated : R s t) :
    ∃ t', Leads step' n t t' ∧ R s' t' := by
  induction n generalizing s t with
  | zero =>
      obtain rfl := leads_zero_iff.mp hlead
      exact ⟨t, leads_zero_iff.mpr rfl, hrelated⟩
  | succ n ih =>
      obtain ⟨mid, hstep, hrest⟩ := leads_succ_iff.mp hlead
      obtain ⟨mid', hstep', hmid⟩ := hsteps hrelated hstep
      obtain ⟨t', hrest', hend⟩ := ih hrest hmid
      exact ⟨t', leads_succ_iff.mpr ⟨mid', hstep', hrest'⟩, hend⟩

end Runs
