import Mathlib.Algebra.Ring.Periodic
import Mathlib.Data.Int.GCD
import Mathlib.Tactic.Linarith
import Mathlib.Tactic.Ring

/-!
# Two blocks read in the wrong order

A text consists of a block of `m` letters and a block of `l` letters behind it.
A reader that expects the short block first cuts the text at another place.  It
finds the same two blocks just when the text repeats itself with the greatest
common divisor of the two lengths.
-/

namespace SwappedBlocks

variable {α : Type} (text : ℕ → α)

/-- The first `n` letters repeat with the given period. -/
def Repeats (period n : ℕ) : Prop :=
  ∀ i j, i < n → j < n → i ≡ j [MOD period] → text i = text j

variable {text} in
theorem Repeats.mono {period n n' : ℕ} (hrepeats : Repeats text period n') (hle : n ≤ n') :
    Repeats text period n :=
  fun i j hi hj hmod => hrepeats i j (hi.trans_le hle) (hj.trans_le hle) hmod

/-- A reader that takes `l` letters first finds the block of `m` letters behind
them, and the other block in them. -/
structure ReadsSame (l m : ℕ) : Prop where
  first : ∀ i < m, text (l + i) = text i
  second : ∀ i < l, text i = text (m + i)

/-- The text around a circle of `n` letters. -/
def circle (n : ℕ) (z : ℤ) : α := text (z % n).toNat

variable {text}

theorem circle_natCast {n i : ℕ} (hi : i < n) : circle text n i = text i := by
  unfold circle
  rw [← Int.natCast_mod, Int.toNat_natCast, Nat.mod_eq_of_lt hi]

theorem circle_periodic (n : ℕ) : Function.Periodic (circle text n) n := by
  intro z
  unfold circle
  rw [Int.add_emod_right]

theorem ReadsSame.circle_periodic
    {l m : ℕ} (hlength : 0 < m + l) (hsame : ReadsSame text l m) :
    Function.Periodic (circle text (m + l)) l := by
  intro z
  have hpos : (0 : ℤ) < (m + l : ℕ) := by exact_mod_cast hlength
  have hnonneg : 0 ≤ z % (m + l : ℕ) := Int.emod_nonneg z hpos.ne'
  have hlt : z % (m + l : ℕ) < (m + l : ℕ) := Int.emod_lt_of_pos z hpos
  obtain ⟨i, hi⟩ := Int.eq_ofNat_of_zero_le hnonneg
  have hbase : circle text (m + l) z = text i := by
    unfold circle
    rw [hi, Int.toNat_natCast]
  have hshift : circle text (m + l) (z + l) = circle text (m + l) ((i : ℤ) + l) := by
    unfold circle
    rw [← Int.emod_add_emod, hi]
  rw [hi] at hlt
  rw [hbase, hshift]
  by_cases hfirst : i < m
  · have hcast : ((i : ℤ) + l) = ((l + i : ℕ) : ℤ) := by omega
    rw [hcast, circle_natCast (by omega), hsame.first i hfirst]
  · have hcast : ((i : ℤ) + l) = ((i - m : ℕ) : ℤ) + (m + l : ℕ) := by omega
    rw [hcast, SwappedBlocks.circle_periodic, circle_natCast (by omega),
      hsame.second (i - m) (by omega)]
    congr 1
    omega

theorem readsSame_iff {l m : ℕ} (hlength : 0 < m + l) :
    ReadsSame text l m ↔ Repeats text (l.gcd m) (m + l) := by
  constructor
  · intro hsame i j hi hj hmod
    have hl : Function.Periodic (circle text (m + l)) l := hsame.circle_periodic hlength
    have hm : Function.Periodic (circle text (m + l)) m := by
      have hdiff := (circle_periodic (m + l)).sub_period hl
      simpa using hdiff
    have hgcd : Function.Periodic (circle text (m + l)) (l.gcd m : ℤ) := by
      have hbezout := (hl.int_mul (l.gcdA m)).add_period (hm.int_mul (l.gcdB m))
      rw [Nat.gcd_eq_gcd_ab, mul_comm (l : ℤ), mul_comm (m : ℤ)]
      exact hbezout
    rcases (Nat.modEq_iff_dvd.mp hmod) with ⟨k, hk⟩
    have hj' : (j : ℤ) = i + k * (l.gcd m : ℤ) := by linarith
    calc text i = circle text (m + l) i := (circle_natCast hi).symm
      _ = circle text (m + l) (i + k * (l.gcd m : ℤ)) := (hgcd.int_mul k i).symm
      _ = circle text (m + l) j := by rw [hj']
      _ = text j := circle_natCast hj
  · intro hrepeats
    have hl : l ≡ 0 [MOD l.gcd m] := (Nat.modEq_zero_iff_dvd).mpr (Nat.gcd_dvd_left l m)
    have hm : m ≡ 0 [MOD l.gcd m] := (Nat.modEq_zero_iff_dvd).mpr (Nat.gcd_dvd_right l m)
    refine ⟨fun i hi => hrepeats _ _ (by omega) (by omega) ?_,
      fun i hi => hrepeats _ _ (by omega) (by omega) ?_⟩
    · simpa using hl.add_right i
    · simpa using (hm.add_right i).symm

/-- Behind a text that repeats, the first block follows once more. -/
theorem repeats_again_iff
    {l m period : ℕ} (hperiod : period ∣ m + l) (hrepeats : Repeats text period (m + l)) :
    (∀ i < m, text (m + l + i) = text i) ↔ Repeats text period (m + l + m) := by
  have hlength : m + l ≡ 0 [MOD period] := (Nat.modEq_zero_iff_dvd).mpr hperiod
  constructor
  · intro hagain
    -- every letter is that of its place in the first text
    have hback : ∀ i < m + l + m, ∃ i' < m + l, i' ≡ i [MOD period] ∧ text i = text i' := by
      intro i hi
      by_cases hin : i < m + l
      · exact ⟨i, hin, rfl, rfl⟩
      · refine ⟨i - (m + l), by omega, ?_, ?_⟩
        · have hsum : i = m + l + (i - (m + l)) := by omega
          have hmod := hlength.add_right (i - (m + l))
          rw [← hsum, Nat.zero_add] at hmod
          exact hmod.symm
        · have hat := hagain (i - (m + l)) (by omega)
          rwa [Nat.add_sub_cancel' (by omega)] at hat
    intro i j hi hj hmod
    rcases hback i hi with ⟨i', hi', hmodi, htexti⟩
    rcases hback j hj with ⟨j', hj', hmodj, htextj⟩
    rw [htexti, htextj]
    exact hrepeats i' j' hi' hj' ((hmodi.trans hmod).trans hmodj.symm)
  · intro hlong i hi
    refine hlong _ _ (by omega) (by omega) ?_
    simpa using hlength.add_right i

end SwappedBlocks
