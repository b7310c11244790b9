import Mathlib.Data.BitVec
import Mathlib.Tactic

/-!
# Scans that wrap

A scan walks through the cells of a store from an address on, up to the first
cell at which it stops; addresses wrap.  It comes past every cell, so it ends if
there is a cell to stop at, and then within one round.
-/

namespace WrappingScan

variable {n : ℕ} {α : Type} (cells : BitVec n → α) (stop : α → Prop) [DecidablePred stop]

/-- The cells before the first one at which the scan stops. -/
def scan : ℕ → BitVec n → Option (List α)
  | 0, _ => none
  | fuel + 1, off =>
      if stop (cells off) then some []
      else (scan fuel (off + 1)).map (cells off :: ·)

variable {cells stop}

theorem scan_of_never (hnever : ∀ a, ¬ stop (cells a)) (fuel : ℕ) (off : BitVec n) :
    scan cells stop fuel off = none := by
  induction fuel generalizing off with
  | zero => rfl
  | succ fuel ih => rw [scan, if_neg (hnever off), ih, Option.map_none]

theorem scan_ends
    {fuel i : ℕ} {off : BitVec n} (hi : i < fuel) (hstop : stop (cells (off + BitVec.ofNat n i))) :
    scan cells stop fuel off ≠ none := by
  induction fuel generalizing i off with
  | zero => omega
  | succ fuel ih =>
      rw [scan]
      by_cases hhere : stop (cells off)
      · simp [hhere]
      · cases i with
        | zero => simp [hhere] at hstop
        | succ i =>
            have hnext : stop (cells (off + 1 + BitVec.ofNat n i)) := by
              rw [BitVec.ofNat_add, add_comm (BitVec.ofNat n i), ← add_assoc] at hstop
              exact hstop
            simpa [hhere] using ih (Nat.lt_of_succ_lt_succ hi) hnext

theorem scan_stable
    {fuel fuel' : ℕ} {off : BitVec n} (hle : fuel ≤ fuel') (hends : scan cells stop fuel off ≠ none) :
    scan cells stop fuel' off = scan cells stop fuel off := by
  induction fuel generalizing fuel' off with
  | zero => exact absurd rfl hends
  | succ fuel ih =>
      rcases Nat.exists_eq_add_of_le hle with ⟨extra, heq⟩
      rw [heq, Nat.add_right_comm, scan, scan]
      by_cases hhere : stop (cells off)
      · rw [if_pos hhere, if_pos hhere]
      · rw [if_neg hhere, if_neg hhere, ih (Nat.le_add_right fuel extra)]
        intro hnone
        rw [scan, if_neg hhere, hnone] at hends
        exact hends rfl

/-- One round comes past every cell. -/
theorem scan_eq_none_iff {fuel : ℕ} (hround : 2 ^ n ≤ fuel) (off : BitVec n) :
    scan cells stop fuel off = none ↔ ∀ a, ¬ stop (cells a) := by
  constructor
  · intro hnone a hstop
    have hplace : off + BitVec.ofNat n (a - off).toNat = a := by
      rw [BitVec.ofNat_toNat, BitVec.setWidth_eq]
      abel
    rw [← hplace] at hstop
    have hless : (a - off).toNat < fuel := Nat.lt_of_lt_of_le (a - off).isLt hround
    exact scan_ends hless hstop hnone
  · intro hnever
    exact scan_of_never hnever fuel off

/-- More than one round is not needed. -/
theorem scan_enough {fuel : ℕ} (hround : 2 ^ n ≤ fuel) (off : BitVec n) :
    scan cells stop fuel off = scan cells stop (2 ^ n) off := by
  by_cases hnone : scan cells stop (2 ^ n) off = none
  · rw [hnone, scan_eq_none_iff hround]
    exact (scan_eq_none_iff le_rfl off).mp hnone
  · exact scan_stable hround hnone

end WrappingScan
