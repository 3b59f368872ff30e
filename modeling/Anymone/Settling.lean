import Mathlib.Data.Nat.Nth
import Mathlib.Logic.Function.Iterate

/-! # Settling

A sequence settles when it is constant from some index on.  A machine that takes a step at some
moments and stands still at the others settles exactly when its iterates do, if it keeps taking
steps.  What comes to rest settles: `exists_rest` is the rule for a step that brings a measure
down until a state of rest is reached.
-/

namespace Settling
variable {α β : Type}

/-- The sequence is constant from some index on. -/
def Settles (x : Nat → α) : Prop := ∃ K, ∀ k ≥ K, x k = x K

/-- The sequence takes the step `f` at the moments it acts, and stands still at the others. -/
structure Stutters (f : α → α) (acts : Nat → Prop) (x : Nat → α) : Prop where
  act : ∀ k, acts k → x (k + 1) = f (x k)
  stand : ∀ k, ¬ acts k → x (k + 1) = x k

variable {f : α → α} {acts : Nat → Prop} {x : Nat → α}

/-- A later part of a sequence settles exactly when the sequence does. -/
theorem settles_shift (k0 : Nat) : Settles (fun k => x (k0 + k)) ↔ Settles x := by
  constructor
  · rintro ⟨K, hK⟩
    refine ⟨k0 + K, fun k hk => ?_⟩
    obtain ⟨d, rfl⟩ := Nat.exists_eq_add_of_le (show k0 ≤ k by omega)
    exact hK d (by omega)
  · rintro ⟨K, hK⟩
    refine ⟨K, fun k hk => ?_⟩
    exact (hK (k0 + k) (by omega)).trans (hK (k0 + K) (by omega)).symm

section Iterates
variable [DecidablePred acts]

theorem Stutters.eq_iterate (h : Stutters f acts x) (k : Nat) :
    x k = f^[Nat.count acts k] (x 0) := by
  induction k with
  | zero => rfl
  | succ k ih =>
    by_cases hact : acts k
    · rw [h.act k hact, Nat.count_succ, if_pos hact, Function.iterate_succ_apply', ← ih]
    · rw [h.stand k hact, Nat.count_succ, if_neg hact, Nat.add_zero, ih]

/-- **What keeps taking steps settles exactly when its iterates do.** -/
theorem Stutters.settles_iff (h : Stutters f acts x) (hforever : ∀ K, ∃ k ≥ K, acts k)
    (g : α → β) : Settles (fun k => g (x k)) ↔ Settles (fun m => g (f^[m] (x 0))) := by
  have hinf : (Set.ofPred acts).Infinite := by
    refine Set.infinite_of_forall_exists_gt fun K => ?_
    obtain ⟨k, hk, hact⟩ := hforever (K + 1)
    exact ⟨k, hact, hk⟩
  have hnth : ∀ m, x (Nat.nth acts m) = f^[m] (x 0) := by
    intro m
    rw [h.eq_iterate, Nat.count_nth_of_infinite hinf]
  constructor
  · rintro ⟨K, hK⟩
    have hat : ∀ m ≥ Nat.count acts K, g (f^[m] (x 0)) = g (x K) := by
      intro m hm
      rw [← hnth m]
      exact hK _ ((Nat.count_le_iff_le_nth hinf).mp hm)
    exact ⟨Nat.count acts K, fun m hm => (hat m hm).trans (hat _ le_rfl).symm⟩
  · rintro ⟨M, hM⟩
    have hat : ∀ k ≥ Nat.nth acts M, g (x k) = g (f^[M] (x 0)) := by
      intro k hk
      rw [h.eq_iterate k]
      refine hM _ ?_
      rw [← Nat.count_nth_of_infinite hinf M]
      exact Nat.count_monotone acts hk
    exact ⟨Nat.nth acts M, fun k hk => (hat k hk).trans (hat _ le_rfl).symm⟩

end Iterates

/-! ## Coming to rest -/

/-- **A step that brings a measure down until it rests comes to rest**: the induction is on the
measure. -/
theorem exists_rest {I R : α → Prop} (μ : α → Nat) (hinv : ∀ s, I s → I (f s))
    (hdown : ∀ s, I s → ¬ R s → R (f s) ∨ μ (f s) < μ s) :
    ∀ s, I s → ∃ m, R (f^[m] s) := by
  intro s
  induction hμ : μ s using Nat.strong_induction_on generalizing s with
  | _ n ih =>
    intro hs
    by_cases hrest : R s
    · exact ⟨0, hrest⟩
    rcases hdown s hs hrest with h | h
    · exact ⟨1, h⟩
    · obtain ⟨m, hm⟩ := ih (μ (f s)) (hμ ▸ h) (f s) rfl (hinv s hs)
      exact ⟨m + 1, hm⟩

/-- What the step preserves holds of every iterate. -/
theorem iterate_invariant {I : α → Prop} (hinv : ∀ s, I s → I (f s)) {s : α} (h : I s)
    (m : Nat) : I (f^[m] s) := by
  induction m with
  | zero => exact h
  | succ m ih =>
    rw [Function.iterate_succ_apply']
    exact hinv _ ih

/-- Iterates from a state of rest on, where what is observed does not change, settle. -/
theorem settles_of_rest {R : α → Prop} {g : α → β} (hrest : ∀ s, R s → R (f s))
    (hstill : ∀ s, R s → g (f s) = g s) {s : α} {m : Nat} (h : R (f^[m] s)) :
    Settles (fun m => g (f^[m] s)) := by
  refine ⟨m, fun k hk => ?_⟩
  obtain ⟨d, rfl⟩ := Nat.exists_eq_add_of_le hk
  induction d with
  | zero => rfl
  | succ d ih =>
    have hat : R (f^[m + d] s) := by
      rw [Nat.add_comm, Function.iterate_add_apply]
      exact iterate_invariant hrest h d
    calc g (f^[m + (d + 1)] s) = g (f (f^[m + d] s)) := by
          rw [← Nat.add_assoc, Function.iterate_succ_apply']
      _ = g (f^[m + d] s) := hstill _ hat
      _ = g (f^[m] s) := ih (Nat.le_add_right m d)

end Settling
