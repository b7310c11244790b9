import Mathlib.Data.List.Lex
import Mathlib.Data.Set.Function
import Mathlib.Tactic.Linarith
import Mathlib.Tactic.Ring

/-!
# Numbers in a mixed radix

Digits over a list of radices, the first digit counting most.  The digits below
their radices are the numbers below the product of the radices, in the same
order.
-/

namespace MixedRadix

def capacity : List ℕ → ℕ
  | [] => 1
  | radix :: radices => radix * capacity radices

/-- The digits belong to the radices, one by one. -/
def Fits : List ℕ → List ℕ → Prop
  | [], [] => True
  | radix :: radices, digit :: digits => digit < radix ∧ Fits radices digits
  | _, _ => False

def value : List ℕ → List ℕ → ℕ
  | _ :: radices, digit :: digits => digit * capacity radices + value radices digits
  | _, _ => 0

def digits : List ℕ → ℕ → List ℕ
  | [], _ => []
  | _ :: radices, n => n / capacity radices :: digits radices (n % capacity radices)

theorem capacity_pos {radices : List ℕ} (hpos : ∀ radix ∈ radices, 0 < radix) :
    0 < capacity radices := by
  induction radices with
  | nil => simp [capacity]
  | cons radix radices ih =>
      simp only [List.forall_mem_cons] at hpos
      exact Nat.mul_pos hpos.1 (ih hpos.2)

theorem value_lt {radices ds : List ℕ} (hds : Fits radices ds) :
    value radices ds < capacity radices := by
  induction radices generalizing ds with
  | nil =>
      cases ds with
      | nil => simp [value, capacity]
      | cons d ds => exact hds.elim
  | cons radix radices ih =>
      cases ds with
      | nil => exact hds.elim
      | cons d ds =>
          have hrest := ih hds.2
          calc
            d * capacity radices + value radices ds < (d + 1) * capacity radices := by
              rw [Nat.add_mul, Nat.one_mul]
              omega
            _ ≤ radix * capacity radices := Nat.mul_le_mul_right _ hds.1

theorem lead_lt_iff {n a b r s : ℕ} (hr : r < n) (hs : s < n) :
    a * n + r < b * n + s ↔ a < b ∨ a = b ∧ r < s := by
  constructor
  · intro hlt
    rcases Nat.lt_trichotomy a b with hab | rfl | hab
    · exact .inl hab
    · exact .inr ⟨rfl, by omega⟩
    · have hstep : (b + 1) * n ≤ a * n := Nat.mul_le_mul_right _ hab
      rw [Nat.add_mul, Nat.one_mul] at hstep
      omega
  · rintro (hab | ⟨rfl, hrs⟩)
    · have hstep : (a + 1) * n ≤ b * n := Nat.mul_le_mul_right _ hab
      rw [Nat.add_mul, Nat.one_mul] at hstep
      omega
    · omega

/-- The order of the values is the lexicographic one of the digits. -/
theorem value_lt_iff {radices ds es : List ℕ} (hds : Fits radices ds)
    (hes : Fits radices es) : value radices ds < value radices es ↔ ds < es := by
  induction radices generalizing ds es with
  | nil =>
      cases ds with
      | nil =>
          cases es with
          | nil => simp [value]
          | cons e es => exact hes.elim
      | cons d ds => exact hds.elim
  | cons radix radices ih =>
      cases ds with
      | nil => exact hds.elim
      | cons d ds =>
          cases es with
          | nil => exact hes.elim
          | cons e es =>
              rw [value, value, lead_lt_iff (value_lt hds.2) (value_lt hes.2), ih hds.2 hes.2,
                List.cons_lt_cons_iff]

theorem value_injOn (radices : List ℕ) : Set.InjOn (value radices) {ds | Fits radices ds} := by
  intro ds hds es hes heq
  by_contra hne
  rcases lt_or_gt_of_ne hne with hlt | hlt
  · have hvalue := (value_lt_iff hds hes).mpr hlt
    omega
  · have hvalue := (value_lt_iff hes hds).mpr hlt
    omega

theorem digits_fit {radices : List ℕ} (hpos : ∀ radix ∈ radices, 0 < radix) {n : ℕ}
    (hn : n < capacity radices) : Fits radices (digits radices n) := by
  induction radices generalizing n with
  | nil => trivial
  | cons radix radices ih =>
      simp only [List.forall_mem_cons] at hpos
      have hcapacity := capacity_pos hpos.2
      exact ⟨(Nat.div_lt_iff_lt_mul hcapacity).mpr hn, ih hpos.2 (Nat.mod_lt n hcapacity)⟩

theorem value_digits {radices : List ℕ} {n : ℕ} (hn : n < capacity radices) :
    value radices (digits radices n) = n := by
  induction radices generalizing n with
  | nil =>
      simp only [capacity] at hn
      simp [value]
      omega
  | cons radix radices ih =>
      have hcapacity : 0 < capacity radices := by
        rcases Nat.eq_zero_or_pos (capacity radices) with hzero | hpos
        · rw [capacity, hzero, Nat.mul_zero] at hn
          omega
        · exact hpos
      rw [digits, value, ih (Nat.mod_lt n hcapacity), Nat.mul_comm]
      exact Nat.div_add_mod n (capacity radices)

theorem value_bijOn {radices : List ℕ} (hpos : ∀ radix ∈ radices, 0 < radix) :
    Set.BijOn (value radices) {ds | Fits radices ds} (Set.Iio (capacity radices)) := by
  refine ⟨fun ds hds => value_lt hds, value_injOn radices, ?_⟩
  intro n hn
  exact ⟨digits radices n, digits_fit hpos hn, value_digits hn⟩

end MixedRadix
