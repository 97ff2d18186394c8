import RiscvSim.Lib.Runs

/-!
Rules for what the runs of a step relation come to. The rules follow the way a
program is put together: a step in front, one piece behind another, and a loop
whose turns make a measure smaller.
-/

namespace TotalCorrectness

open Runs

universe u v

variable {σ : Type u} {step : σ → σ → Prop} {P Q : σ → Prop} {s s' : σ}

/-- A run from the state ends in `Q`. -/
def Reaches (step : σ → σ → Prop) (Q : σ → Prop) (s : σ) : Prop :=
  ∃ n s', Leads step n s s' ∧ Q s'

theorem Reaches.here (h : Q s) : Reaches step Q s := ⟨0, s, leads_zero_iff.mpr rfl, h⟩

theorem Reaches.step_then (hstep : step s s') (h : Reaches step Q s') : Reaches step Q s := by
  obtain ⟨n, last, hlead, hlast⟩ := h
  exact ⟨n + 1, last, leads_succ_iff.mpr ⟨s', hstep, hlead⟩, hlast⟩

/-- One piece behind another. -/
theorem Reaches.trans (h : Reaches step P s) (hrest : ∀ s', P s' → Reaches step Q s') :
    Reaches step Q s := by
  obtain ⟨n, mid, hfront, hmid⟩ := h
  obtain ⟨k, last, hback, hlast⟩ := hrest mid hmid
  exact ⟨n + k, last, hfront.trans hback, hlast⟩

theorem Reaches.mono (h : Reaches step P s) (himp : ∀ s', P s' → Q s') : Reaches step Q s :=
  h.trans fun s' hs' => .here (himp s' hs')

/-- What every step keeps still holds in the end. -/
theorem Reaches.keeps (h : Reaches step Q s) (hkeeps : ∀ s s', step s s' → P s → P s')
    (hstart : P s) : Reaches step (fun s' => Q s' ∧ P s') s := by
  obtain ⟨n, last, hlead, hlast⟩ := h
  obtain ⟨trace, hrun, rfl, rfl⟩ := hlead
  have hend := hrun.invariant hstart hkeeps n (Nat.le_refl n)
  exact ⟨n, trace n, ⟨trace, hrun, rfl, rfl⟩, hlast, hend⟩

/-- A loop: each turn leaves it, or comes back to the invariant with a smaller
measure. -/
theorem Reaches.loop {α : Type v} (measure : α → Nat) (invariant : α → σ → Prop)
    (hturn : ∀ a s, invariant a s →
      Reaches step (fun s' => Q s' ∨ ∃ a', measure a' < measure a ∧ invariant a' s') s)
    {a : α} (h : invariant a s) : Reaches step Q s := by
  induction hn : measure a using Nat.strongRecOn generalizing a s with
  | ind n ih =>
      refine (hturn a s h).trans fun s' hs' => ?_
      rcases hs' with hend | ⟨a', hless, hagain⟩
      · exact .here hend
      · exact ih (measure a') (by omega) hagain rfl

end TotalCorrectness
