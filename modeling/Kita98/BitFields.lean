import Mathlib.Tactic

/-!
# Fields of a word by offset and width

A field is replaced by clearing its bits under a mask and putting the new ones
in their place.  A field inside the one replaced reads as a field of the new
value, and a field outside it reads as before.
-/

namespace BitFields

variable {w n : ℕ}

def field (x : BitVec w) (offset n : ℕ) : BitVec n := x.extractLsb' offset n

def fieldMask (w offset n : ℕ) : BitVec w := (BitVec.allOnes n).setWidth w <<< offset

def setField (x : BitVec w) (offset : ℕ) (v : BitVec n) : BitVec w :=
  (x &&& ~~~fieldMask w offset n) ||| (v.setWidth w <<< offset)

theorem getLsbD_fieldMask {offset j : ℕ} (hj : j < w) :
    (fieldMask w offset n).getLsbD j = decide (offset ≤ j ∧ j < offset + n) := by
  unfold fieldMask
  rw [BitVec.getLsbD_shiftLeft, BitVec.getLsbD_setWidth, BitVec.getLsbD_allOnes]
  by_cases hbelow : j < offset
  · simp [hbelow]
  · have hless : j - offset < w := by omega
    have hin : j - offset < n ↔ j < offset + n := by omega
    have hfrom : offset ≤ j := by omega
    simp [hj, hbelow, hless, hin, hfrom]

theorem getLsbD_setField {x : BitVec w} {offset j : ℕ} (v : BitVec n) (hj : j < w) :
    (setField x offset v).getLsbD j =
      if offset ≤ j ∧ j < offset + n then v.getLsbD (j - offset) else x.getLsbD j := by
  unfold setField
  rw [BitVec.getLsbD_or, BitVec.getLsbD_and, BitVec.getLsbD_not, getLsbD_fieldMask hj,
    BitVec.getLsbD_shiftLeft, BitVec.getLsbD_setWidth]
  by_cases hbelow : j < offset
  · have hnot : ¬ offset ≤ j := by omega
    simp [hj, hbelow, hnot]
  · have hless : j - offset < w := by omega
    have hfrom : offset ≤ j := by omega
    by_cases hin : j < offset + n
    · simp [hj, hbelow, hless, hin, hfrom]
    · have hnone : v.getLsbD (j - offset) = false := BitVec.getLsbD_of_ge v _ (by omega)
      simp [hj, hbelow, hin, hnone]

section Reading

variable {x : BitVec w} {offset offset' n' : ℕ}

theorem field_setField_inside
    (v : BitVec n) (hlow : offset ≤ offset') (hhigh : offset' + n' ≤ offset + n)
    (hfits : offset' + n' ≤ w) :
    field (setField x offset v) offset' n' = field v (offset' - offset) n' := by
  apply BitVec.eq_of_getLsbD_eq
  intro i hi
  have hin : offset ≤ offset' + i ∧ offset' + i < offset + n := by omega
  have hplace : offset' + i - offset = offset' - offset + i := by omega
  rw [field, field, BitVec.getLsbD_extractLsb', BitVec.getLsbD_extractLsb',
    getLsbD_setField v (by omega), if_pos hin, hplace]

theorem field_setField_self (v : BitVec n) (hfits : offset + n ≤ w) :
    field (setField x offset v) offset n = v := by
  rw [field_setField_inside v le_rfl le_rfl hfits, Nat.sub_self]
  exact BitVec.extractLsb'_eq_self

theorem field_setField_apart
    (v : BitVec n) (hapart : offset' + n' ≤ offset ∨ offset + n ≤ offset')
    (hfits : offset' + n' ≤ w) :
    field (setField x offset v) offset' n' = field x offset' n' := by
  apply BitVec.eq_of_getLsbD_eq
  intro i hi
  have hout : ¬ (offset ≤ offset' + i ∧ offset' + i < offset + n) := by omega
  rw [field, field, BitVec.getLsbD_extractLsb', BitVec.getLsbD_extractLsb',
    getLsbD_setField v (by omega), if_neg hout]

theorem setField_field : setField x offset (field x offset n) = x := by
  apply BitVec.eq_of_getLsbD_eq
  intro j hj
  rw [getLsbD_setField _ hj]
  split
  · next hin =>
      have hplace : offset + (j - offset) = j := by omega
      have hless : j - offset < n := by omega
      rw [field, BitVec.getLsbD_extractLsb', hplace]
      simp [hless]
  · rfl

theorem field_append (x : BitVec w) (start n m : ℕ) :
    field x (start + m) n ++ field x start m = field x start (n + m) := by
  apply BitVec.eq_of_getLsbD_eq
  intro i hi
  rw [BitVec.getLsbD_append]
  unfold field
  rw [BitVec.getLsbD_extractLsb', BitVec.getLsbD_extractLsb', BitVec.getLsbD_extractLsb']
  by_cases hlow : i < m
  · simp [hlow, hi]
  · have hplace : start + m + (i - m) = start + i := by omega
    have hless : i - m < n := by omega
    simp [hlow, hi, hplace, hless]

end Reading

end BitFields
