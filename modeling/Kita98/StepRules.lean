import Mathlib.Data.List.Basic
import Mathlib.Logic.Relation

/-!
# Rules for steps

Total correctness over a step relation: from every state of one set the steps come
to a state of another.
-/

namespace StepRules

open Relation

variable {σ : Type} {R : σ → σ → Prop} {P Q S : σ → Prop}

def Leads (R : σ → σ → Prop) (P Q : σ → Prop) : Prop :=
  ∀ s, P s → ∃ s', ReflTransGen R s s' ∧ Q s'

namespace Leads

theorem of_imp (himp : ∀ s, P s → Q s) : Leads R P Q :=
  fun s hs => ⟨s, .refl, himp s hs⟩

theorem of_step (hstep : ∀ s, P s → ∃ s', R s s' ∧ Q s') : Leads R P Q := by
  intro s hs
  rcases hstep s hs with ⟨s', hone, hq⟩
  exact ⟨s', .single hone, hq⟩

theorem trans (hfirst : Leads R P Q) (hrest : Leads R Q S) : Leads R P S := by
  intro s hs
  rcases hfirst s hs with ⟨mid, hmid, hq⟩
  rcases hrest mid hq with ⟨last, hlast, hdone⟩
  exact ⟨last, hmid.trans hlast, hdone⟩

/-- Two ways on from the same set. -/
theorem cases (hleft : Leads R P S) (hright : Leads R Q S) : Leads R (fun s => P s ∨ Q s) S := by
  rintro s (hs | hs)
  · exact hleft s hs
  · exact hright s hs

/-- A loop whose rounds count down and which the last round leaves at the latest. -/
theorem countdown {I : ℕ → σ → Prop} {n : ℕ}
    (hround : ∀ k < n, Leads R (I (k + 1)) fun s => (0 < k ∧ I k s) ∨ Q s) :
    ∀ k, 0 < k → k ≤ n → Leads R (I k) Q := by
  intro k
  induction k with
  | zero => exact fun hpos => absurd hpos (Nat.lt_irrefl 0)
  | succ k ih =>
      intro _ hle
      have hagain : Leads R (fun s => 0 < k ∧ I k s) Q := by
        rintro s ⟨hk, hs⟩
        exact ih hk (Nat.le_of_succ_le hle) s hs
      exact (hround k hle).trans (hagain.cases (of_imp fun s hs => hs))

end Leads

end StepRules
